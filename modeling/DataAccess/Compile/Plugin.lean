import DataAccess.Delivery.Provider
import DataAccess.Rows.Pruning

/-!
Plugins add providers, rewriters and converter classes to those that are built in. A plugin that
fails leaves behind what it registered, but does not count as loaded.
-/

set_option autoImplicit false

namespace DataAccess.Compile

open Delivery Rows Schema

structure Plugin where
  name : String
  version : String := "0"
  description : String := ""
  reads : List CustomProvider := []
  writes : List CustomProvider := []
  rewriters : List Rewriter := []
  converters : List ConverterClass := []
  /-- Why the plugin fails after it has registered everything. -/
  failure : Option String := none
deriving DecidableEq, Repr

/-- Everything that a compilation can draw on. -/
structure Registry where
  providers : Providers := {}
  rewriters : List Rewriter := []
  converters : List ConverterClass := []
  loaded : List Plugin := []
deriving DecidableEq, Repr

namespace Registry

def builtIn : Registry where
  providers := Providers.builtIn
  rewriters := [.removeUnusedColumns]

/-- Adds what a plugin brings along. -/
def register (r : Registry) (p : Plugin) : Registry :=
  let withReads := p.reads.foldl (fun ps c => ps.registerRead (.custom c)) r.providers
  { r with
    providers := p.writes.foldl (fun ps c => ps.registerWrite (.custom c)) withReads
    rewriters := r.rewriters ++ p.rewriters
    converters := r.converters ++ p.converters }

/-- Loads a plugin. -/
def load (r : Registry) (p : Plugin) : Registry :=
  let r := r.register p
  if p.failure.isNone then { r with loaded := r.loaded ++ [p] } else r

/-- Declarations together with the converter classes of the plugins, which hold for the whole
database. -/
def extend (r : Registry) (decls : Declarations) : Declarations :=
  r.converters.foldl (fun d c =>
    { d with
      converters := if (d.converterClass? c.name).isNone then d.converters ++ [c] else d.converters
      databaseConverters :=
        if d.databaseConverters.contains c.name then d.databaseConverters
        else d.databaseConverters ++ [c.name] }) decls

end Registry

end DataAccess.Compile
