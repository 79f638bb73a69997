import DataAccess.Proofs.Code.Lines
import DataAccess.Proofs.Convert.Drafts
import DataAccess.Rows.RecordRow

/-!
The lines of the code that reads rows and their related rows. The loop that collects the keys of
related rows and the look-up for one row both contain the reading of the key.
-/

set_option autoImplicit false

namespace DataAccess

open Code Emit

namespace Convert

theorem Converter.appends_write (c : Converter) (input output : String) :
    Appends (c.write input output) := by
  have hdraft : (c.draft (.temporary input) output).realize = c.write input output :=
    c.realize_draft _ _
  rw [← hdraft]
  exact appends_realize _

theorem ColumnType.appends_writeRead (c : ColumnType) (out cursor index : String) :
    Appends (c.writeRead out cursor index) := by
  unfold writeRead
  refine Appends.ite ?_ (appends_statement _)
  refine (appends_enter _).bind fun _ => (appends_statement _).bind fun _ => ?_
  exact (appends_next _).bind fun _ => (appends_statement _).bind fun _ => appends_leave

theorem ValueReader.appends_write (r : ValueReader) (out cursor index : String) :
    Appends (r.write out cursor index) := by
  unfold write
  cases r.converter with
  | none => exact r.column.appends_writeRead _ _ _
  | some c =>
    refine (appends_fresh _).bind fun stored => (appends_statement _).bind fun _ => ?_
    exact (r.column.appends_writeRead _ _ _).bind fun _ => c.appends_write _ _

end Convert

namespace Rows

open DataAccess.Convert

theorem appends_declare (f : BoundField) (required : Bool) (cursor : String) :
    Appends (CursorIndex.declare f required cursor) := by
  unfold CursorIndex.declare
  refine (appends_fresh _).bind fun name => ?_
  split
  · exact (appends_statement _).bind fun _ => appends_pure _
  · exact (appends_statement _).bind fun _ => appends_pure _

theorem BoundField.appends_writeRead (f : BoundField) (index : Option CursorIndex)
    (cursor : String) : Appends (f.writeRead index cursor) := by
  unfold writeRead
  refine (appends_fresh _).bind fun name => (appends_statement _).bind fun _ => ?_
  split
  · exact (f.reader.appends_write _ _ _).bind fun _ => appends_pure _
  · refine (appends_fresh _).bind fun present => (appends_fork _).bind fun read => ?_
    refine (appends_enter _).bind fun _ => (appends_splice _).bind fun _ => ?_
    refine (appends_next _).bind fun _ => (appends_statement _).bind fun _ => ?_
    exact appends_leave.bind fun _ => appends_pure _
  · exact (appends_statement _).bind fun _ => appends_pure _

namespace RelatedRows

variable (r : RelatedRows) (map cursor index : String)

theorem appends_writeKey : Appends (r.writeKey cursor index) :=
  (appends_fresh _).bind fun _ => (appends_statement _).bind fun _ =>
    (r.parentReader.appends_write _ _ _).bind fun _ => appends_pure _

theorem appends_writeLookup : Appends (r.writeLookup map cursor index) :=
  (r.appends_writeKey cursor index).bind fun _ => (appends_fresh _).bind fun _ =>
    (appends_statement _).bind fun _ => appends_pure _

theorem occurs_writeLookup (s : Scope) :
    Occurs (r.writeKey cursor index) (written (r.writeLookup map cursor index) s) :=
  (occurs_written _ s).first (r.appends_writeKey cursor index) fun _ =>
    (appends_fresh _).bind fun _ => (appends_statement _).bind fun _ => appends_pure _

/-- Writes the entry of a key into a map. -/
def writeEntry (key : String) : Emit Unit :=
  if r.parentOptional then do
    Emit.enter ("if let Some(_key) = " ++ key)
    Emit.statement (map ++ ".entry(_key).or_default()")
    Emit.leave
  else Emit.statement (map ++ ".entry(" ++ key ++ ").or_default()")

/-- Writes the end of the loop that collects the keys, and the fetch of the related rows. -/
def writeFetchCall (fetch : String) : Emit String := do
  Emit.leave
  Emit.statement (cursor ++ ".move_to_position(-1)")
  Emit.statement ((← Emit.receiver) ++ "." ++ fetch ++ "(&mut " ++ map ++ ")?")
  return map

/-- Writes the loop that collects the keys, with the given body, and what follows it. -/
def writeLoop (body : Block) : Emit String := do
  let fetch ← Emit.sharedMethod r.fetcher
  Emit.enter ("while " ++ cursor ++ ".move_to_next()")
  Emit.splice body
  writeFetchCall map cursor fetch

theorem writePrefetch_eq :
    r.writePrefetch cursor index = (do
      let map ← Emit.fresh ("collection_" ++ "_".intercalate r.path)
      Emit.statement ("let mut " ++ map ++ ": " ++ r.mapType ++ " = HashMap::new()")
      let body ← Emit.fork do
        let key ← r.writeKey cursor index
        r.writeEntry map key
      r.writeLoop map cursor body) := rfl

theorem appends_writeEntry (key : String) : Appends (r.writeEntry map key) := by
  refine Appends.ite ?_ (appends_statement _)
  exact (appends_enter _).bind fun _ => (appends_statement _).bind fun _ => appends_leave

theorem appends_writeFetchCall (fetch : String) : Appends (writeFetchCall map cursor fetch) :=
  appends_leave.bind fun _ => (appends_statement _).bind fun _ =>
    appends_receiver.bind fun _ => (appends_statement _).bind fun _ => appends_pure _

theorem appends_writeLoop (body : Block) : Appends (r.writeLoop map cursor body) :=
  (appends_onMembers _).bind fun _ => (appends_enter _).bind fun _ =>
    (appends_splice _).bind fun _ => appends_writeFetchCall map cursor _

theorem appends_writePrefetch : Appends (r.writePrefetch cursor index) := by
  rw [writePrefetch_eq]
  exact (appends_fresh _).bind fun map => (appends_statement _).bind fun _ =>
    (appends_fork _).bind fun body => r.appends_writeLoop map cursor body

/-- What is written into the body of the loop stands in it. -/
theorem occurs_writeLoop {body : Emit Unit} {s t : Scope} {γ : Type} {part : Emit γ}
    (h : Occurs part (written body { s with block := {} })) :
    Occurs part (written (r.writeLoop map cursor ((Emit.fork body).run s).1) t) := by
  have hcall := appends_writeFetchCall map cursor
  refine Occurs.after (appends_onMembers _) (fun fetch => (appends_enter _).bind fun _ =>
    (appends_splice _).bind fun _ => hcall fetch) ?_
  refine Occurs.after (appends_enter _) (fun _ => (appends_splice _).bind fun _ => hcall _) ?_
  exact h.splice.first (appends_splice _) fun _ => hcall _

theorem occurs_writePrefetch (s : Scope) :
    Occurs (r.writeKey cursor index) (written (r.writePrefetch cursor index) s) := by
  rw [writePrefetch_eq]
  have hloop : ∀ map, Appends (do
      let body ← Emit.fork do
        let key ← r.writeKey cursor index
        r.writeEntry map key
      r.writeLoop map cursor body) :=
    fun map => (appends_fork _).bind fun body => r.appends_writeLoop map cursor body
  refine Occurs.after (appends_fresh _) (fun map => (appends_statement _).bind fun _ => hloop map) ?_
  refine Occurs.after (appends_statement _) (fun _ => hloop _) ?_
  refine Occurs.after (appends_fork _) (fun body => r.appends_writeLoop _ cursor body) ?_
  -- The key is the first thing that is written into the body.
  exact r.occurs_writeLoop _ cursor ((occurs_written _ _).first (r.appends_writeKey cursor index)
    fun key => r.appends_writeEntry _ key)

/-- The collection of the keys stands in the code and reads them at the index. -/
def CollectsAt (code : List Line) : Prop :=
  ∃ t, written (r.writePrefetch cursor index) t <:+: code ∧
    Occurs (r.writeKey cursor index) (written (r.writePrefetch cursor index) t)

variable {r cursor index} in
theorem CollectsAt.mono {code code' : List Line} (h : r.CollectsAt cursor index code)
    (hcode : code <:+: code') : r.CollectsAt cursor index code' := by
  obtain ⟨t, hwritten, hkey⟩ := h
  exact ⟨t, hwritten.trans hcode, hkey⟩

/-- The look-up of a row's related rows stands in the code and reads the key at the index. -/
def LooksUpAt (code : List Line) : Prop :=
  ∃ map t, written (r.writeLookup map cursor index) t <:+: code ∧
    Occurs (r.writeKey cursor index) (written (r.writeLookup map cursor index) t)

end RelatedRows

end Rows

end DataAccess
