import DataAccess.Proofs.Delivery.Transactions
import DataAccess.Proofs.Statement.NestedBinding

/-!
The code of every adapter and of every delivery is well nested. A control flow that it opens is closed
by it, one that was open before stays open, and so no closing brace ever stands at a depth below that
at which the code begins.
-/

set_option autoImplicit false

namespace DataAccess.Delivery

open Code Rows Statement
open DataAccess.Convert (Converter ColumnType ValueBinder ValueReader Argument)

variable {k : Nat}

section Closure

theorem nests_beginTransaction (db : String) :
    Nests k k (Emit.beginTransaction db) fun _ => True :=
  (nests_fresh _).bind fun _ _ => nests_statement _

theorem nests_commit (db : String) : Nests k k (Emit.commit db) fun _ => True := nests_statement _

theorem nests_captureReceiver : Nests k k Emit.captureReceiver fun _ => True :=
  (nests_fresh _).bind fun _ _ => nests_receiver.bind fun _ _ => (nests_statement _).bind fun _ _ =>
    nests_pure trivial

theorem nests_closure (lead type : String) {tail : String} (htail : ¬OpensFlow ("\x7d" ++ tail))
    {act : Emit Unit} (hact : Nests 0 0 act fun _ => True) :
    Nests k k (Emit.closure lead tail type act) fun _ => True := by
  refine nests_captureReceiver.bind fun this _ => (hact.forkAs this).bind fun code hcode => ?_
  refine (nests_enter _).bind fun _ _ => (nests_splice hcode.2).bind fun _ _ => ?_
  exact nests_leaveWith htail

end Closure

theorem nests_ok (value : String) : Nests k k (Emit.line ("Ok(" ++ value ++ ")")) fun _ => True :=
  nests_line (not_opensFlow_append _ (by decide))

namespace WriteResult

variable (r : WriteResult)

theorem nests_writeStatement (statement db : String) :
    Nests k k (r.writeStatement statement db) fun _ => True := by
  refine (nests_fresh _).bind fun outcome _ => Nests.ite ?_ ?_
  · refine (nests_statement _).bind fun _ _ => (nests_commit db).bind fun _ _ => ?_
    exact nests_line (by decide)
  · exact (nests_statement _).bind fun _ _ => (nests_commit db).bind fun _ _ => nests_ok outcome

theorem nests_writeEach {e : EntityStatement} (he : WellNested e.bind.lines) (line : String) :
    Nests k k (e.writeEach line) fun _ => True := by
  unfold EntityStatement.writeEach
  cases e.item with
  | none => exact (nests_splice he).bind fun _ _ => nests_statement _
  | some item =>
    refine (nests_enter _).bind fun _ _ => (nests_splice he).bind fun _ _ => ?_
    exact (nests_statement _).bind fun _ _ => nests_leave

theorem nests_writeRuns {entities : List EntityStatement}
    (h : ∀ e ∈ entities, WellNested e.bind.lines) :
    Nests k k (r.writeRuns entities) fun _ => True := by
  have hall : ∀ line : EntityStatement → String,
      Nests k k (entities.forM fun e => e.writeEach (line e)) fun _ => True :=
    fun line => Nests.forM _ fun e he => nests_writeEach (h e he) (line e)
  have hsum : ∀ outcome : String, Nests k k (do
      Emit.statement ("let mut " ++ outcome ++ ": i32 = 0")
      entities.forM fun e => e.writeEach (outcome ++ " += " ++ r.call e.statement)
      return outcome) fun _ => True :=
    fun outcome => (nests_statement _).bind fun _ _ => (hall _).bind fun _ _ => nests_pure trivial
  refine Nests.ite ((hall _).bind fun _ _ => nests_pure trivial) ?_
  refine (nests_fresh _).bind fun outcome _ => ?_
  split
  · have he := h _ List.mem_cons_self
    refine Nests.ite ?_ ?_
    · exact (nests_splice he).bind fun _ _ => (nests_statement _).bind fun _ _ => nests_pure trivial
    · refine (nests_statement _).bind fun _ _ => (nests_writeEach he _).bind fun _ _ => ?_
      exact nests_pure trivial
  · exact hsum outcome

theorem nests_write {source : StatementSource} (h : NestedSource source) :
    Nests k k (r.write source) fun _ => True := by
  refine nests_db.bind fun db _ => (nests_beginTransaction db).bind fun _ _ => ?_
  cases source with
  | statement name => exact r.nests_writeStatement name db
  | entities statements =>
    refine (r.nests_writeRuns h).bind fun outcome _ => (nests_commit db).bind fun _ _ => ?_
    exact nests_ok outcome

end WriteResult

theorem nests_preparation (p : Preparation) : Nests k k p.code NestedSource := by
  cases p with
  | query bound method => exact bound.nests_prepareWrite method
  | entities write => exact write.nests_prepare

theorem nests_writeRun (r : WriteResult) (p : Preparation) :
    Nests k k (WriteBinder.writeRun r p.code) fun _ => True :=
  (nests_preparation p).bind fun _ hsource => r.nests_write hsource

theorem nests_writeMaybe (factory : String) (r : WriteResult) (p : Preparation) :
    Nests k k (WriteBinder.writeMaybe factory r p.code) fun _ => True := by
  refine nests_captureReceiver.bind fun this _ => (nests_fresh _).bind fun value _ => ?_
  refine ((nests_writeRun r p).forkAs this).bind fun code hcode => (nests_enter _).bind fun _ _ => ?_
  refine (nests_enter _).bind fun _ _ => (nests_splice hcode.2).bind fun _ _ => ?_
  refine (nests_leaveWith (by decide)).bind fun _ _ => ?_
  refine (nests_line (not_opensFlow_append _ (by decide))).bind fun _ _ => ?_
  exact nests_leaveWith (by decide)

theorem nests_writeBinder (b : WriteBinder) (p : Preparation) :
    Nests k k (b.write p.code) fun _ => True := by
  have hclosure : ∀ {tail : String} (lead : String) (r : WriteResult),
      ¬OpensFlow ("\x7d" ++ tail) →
        Nests k k (WriteBinder.writeDeferred lead tail r p.code) fun _ => True :=
    fun lead r htail => nests_closure lead _ htail (nests_writeRun r p)
  obtain ⟨delivery, _ | r⟩ := b
  · exact nests_pure trivial
  cases delivery with
  | instant => exact nests_writeRun r p
  | rx type => exact Nests.ite (nests_writeMaybe _ r p) (hclosure _ r (by decide))
  | listenableFuture => exact nests_db.bind fun db _ => hclosure _ r (by decide)
  | suspending => exact nests_db.bind fun db _ => hclosure _ r (by decide)

namespace ReadBinder

variable (r : Result) (statement : String) (inTransaction : Bool)

theorem nests_writeQuery (signal : Option String) :
    Nests k k (writeQuery r statement signal inTransaction) fun _ => True := by
  refine nests_db.bind fun db _ => Nests.when (nests_beginTransaction db) fun _ => ?_
  refine (nests_fresh _).bind fun cursor _ => (nests_fresh _).bind fun value _ => ?_
  refine (nests_statement _).bind fun _ _ => (Result.nests_write value cursor r).bind fun _ _ => ?_
  exact Nests.when (nests_commit db) fun _ => nests_ok value

theorem nests_writeDeferred (lead : String) {tail : String} (htail : ¬OpensFlow ("\x7d" ++ tail))
    (signal : Option String) :
    Nests k k (writeDeferred lead tail r statement signal inTransaction) fun _ => True :=
  nests_closure lead _ htail (nests_writeQuery r statement inTransaction signal)

theorem nests_writeCancellable (call : String → String → String) {tail : String}
    (htail : ¬OpensFlow ("\x7d" ++ tail)) :
    Nests k k (writeCancellable call tail r statement inTransaction) fun _ => True := by
  refine (nests_fresh _).bind fun signal _ => (nests_statement _).bind fun _ _ => ?_
  exact nests_db.bind fun db _ => nests_writeDeferred r statement inTransaction _ htail _

theorem nests_writePage (lead object : String) {tail : String}
    (htail : ¬OpensFlow ("\x7d" ++ tail)) :
    Nests k k (writePage lead tail object r) fun _ => True := by
  refine (nests_fresh _).bind fun cursor _ => ?_
  have hpage : Nests 0 0 (do
      let page ← Emit.fresh "result"
      r.write page cursor
      Emit.line ("Ok(" ++ page ++ ")")) fun _ => True :=
    (nests_fresh _).bind fun page _ => (Result.nests_write page cursor r).bind fun _ _ =>
      nests_ok page
  refine (hpage.forkAs object).bind fun code hcode => (nests_enter _).bind fun _ _ => ?_
  exact (nests_splice hcode.2).bind fun _ _ => nests_leaveWith htail

theorem nests_writePaging (kind : PagingKind) (tables : NameSet) :
    Nests k k (writePaging kind tables r statement inTransaction) fun _ => True := by
  refine nests_captureReceiver.bind fun this _ => nests_db.bind fun db _ => ?_
  cases kind with
  | dataSource => exact nests_writePage r _ _ (by decide)
  | pagingSource => exact nests_writePage r _ _ (by decide)
  | dataSourceFactory =>
    refine (nests_fresh _).bind fun source _ => ?_
    refine Nests.bind (Nests.fork ?_) fun inner hinner => ?_
    · exact (nests_statement _).bind fun _ _ => nests_writePage r _ source (by decide)
    · refine (nests_enter _).bind fun _ _ => (nests_splice hinner).bind fun _ _ => ?_
      exact nests_leaveWith (by decide)

theorem nests_writeResult (delivery : ReadDelivery) :
    Nests k k (writeResult delivery r statement inTransaction) fun _ => True := by
  refine Nests.ite (nests_pure trivial) (nests_db.bind fun db _ => ?_)
  cases delivery with
  | cursor => exact nests_pure trivial
  | instant => exact nests_writeQuery r statement inTransaction none
  | suspending => exact nests_writeCancellable r statement inTransaction _ (by decide)
  | listenableFuture => exact nests_writeCancellable r statement inTransaction _ (by decide)
  | rxCallable rx => exact nests_writeDeferred r statement inTransaction _ (by decide) none
  | liveData tables => exact nests_writeDeferred r statement inTransaction _ (by decide) none
  | flow tables => exact nests_writeDeferred r statement inTransaction _ (by decide) none
  | rxObservable rx tables => exact nests_writeDeferred r statement inTransaction _ (by decide) none
  | paging kind tables => exact nests_writePaging r statement inTransaction kind tables

theorem nests_write (b : ReadBinder) : Nests k k (b.write statement inTransaction) fun _ => True := by
  obtain ⟨delivery, result⟩ := b
  have hcursor : Nests k k (do
      Emit.line ("db_util::query(&" ++ (← Emit.db) ++ ", &" ++ statement ++ ", false, None)"))
      fun _ => True :=
    nests_db.bind fun db _ => nests_line (not_opensFlow_append _ (by decide))
  cases delivery with
  | cursor => exact hcursor
  | _ =>
    cases result with
    | none => exact nests_pure trivial
    | some result => exact nests_writeResult result statement inTransaction _

end ReadBinder

theorem nests_readSource (source : ReadSource) : Nests k k source.code fun _ => True := by
  cases source with
  | named name => exact nests_pure trivial
  | query bound => exact bound.nests_prepareRead

/-- What writes code into the body of a method, with the variables that it is given. -/
inductive Emitter where
  | convert (converter : Converter) (input output : String)
  | bindColumn (column : ColumnType) (statement index value : String)
  | readColumn (column : ColumnType) (out cursor index : String)
  | bindValue (binder : ValueBinder) (statement index value : String)
  | readValue (reader : ValueReader) (out cursor index : String)
  | bindRunning (argument : Argument) (statement counter input : String)
  | bindAt (argument : Argument) (statement : String) (index : Nat) (input : String)
  | prefetch (relation : RelatedRows) (cursor index : String)
  | lookup (relation : RelatedRows) (map cursor index : String)
  | startRows (row : Row) (cursor : String)
  | readRow (row : Row) (out cursor : String) (state : RowState)
  | readResult (result : Result) (out cursor : String)
  | prepareRead (source : ReadSource)
  | prepareWrite (preparation : Preparation)
  | runWrite (result : WriteResult) (preparation : Preparation)
  | deliverRead (binder : ReadBinder) (source : ReadSource) (inTransaction : Bool)
  | deliverWrite (binder : WriteBinder) (preparation : Preparation)

namespace Emitter

/-- The code that is written; the variables that it leaves behind do not matter here. -/
def code : Emitter → Emit Unit
  | convert c input output => c.write input output
  | bindColumn c statement index value => c.writeBind statement index value
  | readColumn c out cursor index => c.writeRead out cursor index
  | bindValue b statement index value => b.write statement index value
  | readValue r out cursor index => r.write out cursor index
  | bindRunning a statement counter input => a.writeRunning statement counter input
  | bindAt a statement index input => a.writeAt statement index input
  | prefetch r cursor index => do discard (r.writePrefetch cursor index)
  | lookup r map cursor index => do discard (r.writeLookup map cursor index)
  | startRows row cursor => do discard (row.writePrologue cursor)
  | readRow row out cursor state => row.write out cursor state
  | readResult r out cursor => r.write out cursor
  | prepareRead source => do discard source.code
  | prepareWrite p => do discard p.code
  | runWrite r p => WriteBinder.writeRun r p.code
  | deliverRead b source inTransaction => do b.write (← source.code) inTransaction
  | deliverWrite b p => b.write p.code

theorem nests_code (e : Emitter) : Nests k k e.code fun _ => True := by
  have hdiscard : ∀ {α : Type} {act : Emit α} {post : α → Prop}, Nests k k act post →
      Nests k k (discard act) fun _ => True :=
    fun h => h.bind fun _ _ => nests_pure trivial
  cases e with
  | convert c input output => exact c.nests_write input output
  | bindColumn c statement index value => exact c.nests_writeBind statement index value
  | readColumn c out cursor index => exact c.nests_writeRead out cursor index
  | bindValue b statement index value => exact b.nests_write statement index value
  | readValue r out cursor index => exact r.nests_write out cursor index
  | bindRunning a statement counter input => exact a.nests_writeRunning statement counter input
  | bindAt a statement index input => exact a.nests_writeAt statement input index
  | prefetch r cursor index => exact hdiscard (r.nests_writePrefetch cursor index)
  | lookup r map cursor index => exact hdiscard (r.nests_writeLookup map cursor index)
  | startRows row cursor => exact hdiscard (row.nests_writePrologue cursor)
  | readRow row out cursor state => exact row.nests_write out cursor state
  | readResult r out cursor => exact Result.nests_write out cursor r
  | prepareRead source => exact hdiscard (nests_readSource source)
  | prepareWrite p => exact hdiscard (nests_preparation p)
  | runWrite r p => exact nests_writeRun r p
  | deliverRead b source inTransaction =>
    exact (nests_readSource source).bind fun statement _ => b.nests_write statement inTransaction
  | deliverWrite b p => exact nests_writeBinder b p

/-- In every scope the code is that of a script that closes each control flow that it opens, in its
forks as well, and no other one. Whatever block it is written into, it adds the same well-nested lines
at the depth of the block and leaves this depth as it is, so that what it closes is never beyond the
depth at which it began. The shared methods that it makes are well nested, too. -/
theorem code_wellNested (e : Emitter) :
    ∃ p : Script Unit, p.run = e.code ∧ ∀ s : Scope, p.Balanced s ∧ p.Contained s ∧
      (∃ lines, WellNested lines ∧ ∀ b : Block,
        (e.code.run { s with block := b }).2.block = ⟨b.lines ++ sunken b.depth lines, b.depth⟩) ∧
      ∀ m ∈ (e.code.run s).2.members.methods, m ∈ s.members.methods ∨ WellNested m.body.lines := by
  obtain ⟨p, hrun, hp⟩ := e.nests_code
  refine ⟨p, hrun, fun s => ⟨(hp s).opened, (hp s).contained, ?_, hrun ▸ (hp s).grown⟩⟩
  let apart : Scope := { s with block := {} }
  refine ⟨(p.run.run apart).2.block.lines, (hp apart).lines rfl, fun b => ?_⟩
  obtain ⟨hwithin, hdepth⟩ := p.run_within b apart 0 (hp apart).opened
  have hb : apart.within b = { s with block := b } := by simp [apart, Scope.within]
  rw [← hrun, ← hb, hwithin]
  simp [Scope.within, Block.within, hdepth]

end Emitter

end DataAccess.Delivery
