import DataAccess.Proofs.Code.Nesting
import DataAccess.Proofs.Rows.Writing
import DataAccess.Rows.Result

/-!
The code that converts values and reads results is well nested: loops over lists, rows that may be
missing, optional columns and the look-up of related rows, in one another and in forks.
-/

set_option autoImplicit false

namespace DataAccess

open Code

variable {k : Nat}

namespace Convert

theorem grown_field_of_pure {spec : ClassMembers.FieldSpec} {member : String × String}
    (h : spec.prepare = pure member) (c : ClassMembers) :
    Grown c ((ClassMembers.field spec).run c).2 :=
  grown_field spec (fun c => h ▸ .refl c) c

theorem grown_providedGetter (className : String) (c : ClassMembers) :
    Grown c ((ClassMembers.method (Converter.providedGetter className)).run c).2 := by
  refine grown_method _ (fun name c => ⟨?_, ?_⟩) c
  · exact (grown_of_methods rfl).trans
      (grown_field_of_pure rfl ((ClassMembers.require className).run c).2)
  · have hline : ∀ text, WellNested [(0, text ++ ">())")] := by
      intro text
      have hplain : ¬OpensFlow (text ++ ">())") := not_opensFlow_append text (by decide)
      simp [WellNested, flows, hplain]
    exact hline _

theorem nests_callee (m : Schema.CustomConverter) :
    Nests k k (Converter.callee m) fun _ => True := by
  refine nests_receiver.bind fun object _ => ?_
  cases m.kind with
  | static => exact nests_pure trivial
  | constructed =>
    exact (nests_onMembers (grown_field_of_pure rfl)).bind fun _ _ => nests_pure trivial
  | provided =>
    exact (nests_onMembers (grown_providedGetter m.className)).bind fun _ _ => nests_pure trivial

theorem Converter.nests_write (c : Converter) (input output : String) :
    Nests k k (c.write input output) fun _ => True := by
  induction c generalizing input output k with
  | identity | boolToInt | intToBool | optionBoolToInt | optionIntToBool =>
    exact nests_statement _
  | custom m => exact (nests_callee m).bind fun method _ => nests_statement _
  | nullSafe inner ih =>
    refine (nests_fresh _).bind fun value _ => (nests_fresh _).bind fun converted _ => ?_
    have hbody : Nests 0 0 (do
        Emit.statement ("let " ++ converted ++ ": " ++ inner.target.display)
        inner.write value converted
        Emit.statement (output ++ " = Some(" ++ converted ++ ")")) fun _ => True :=
      (nests_statement _).bind fun _ _ => (ih value converted).bind fun _ _ => nests_statement _
    refine hbody.fork.bind fun body hbody => (nests_enter _).bind fun _ _ => ?_
    refine (nests_line (not_opensFlow_append _ (by decide))).bind fun _ _ => ?_
    refine (nests_enter _).bind fun _ _ => (nests_splice hbody).bind fun _ _ => ?_
    exact nests_leave.bind fun _ _ => nests_leave
  | chain first second hfirst hsecond =>
    refine (nests_fresh _).bind fun middle _ => (nests_statement _).bind fun _ _ => ?_
    exact (hfirst input middle).bind fun _ _ => hsecond middle output

namespace ColumnType

variable (c : ColumnType)

theorem nests_writeBind (stmt index value : String) :
    Nests k k (c.writeBind stmt index value) fun _ => True := by
  refine Nests.ite ?_ (nests_statement _)
  refine (nests_fresh _).bind fun present _ => (nests_enter _).bind fun _ _ => ?_
  refine (nests_line (not_opensFlow_append _ (by decide))).bind fun _ _ => ?_
  exact (nests_line (not_opensFlow_append _ (by decide))).bind fun _ _ => nests_leave

theorem nests_writeRead (out cursor index : String) :
    Nests k k (c.writeRead out cursor index) fun _ => True := by
  refine Nests.ite ?_ (nests_statement _)
  refine (nests_enter _).bind fun _ _ => (nests_statement _).bind fun _ _ => ?_
  exact (nests_next _).bind fun _ _ => (nests_statement _).bind fun _ _ => nests_leave

end ColumnType

theorem ValueBinder.nests_write (b : ValueBinder) (stmt index value : String) :
    Nests k k (b.write stmt index value) fun _ => True := by
  unfold write
  cases b.converter with
  | none => exact b.column.nests_writeBind stmt index value
  | some c =>
    refine (nests_fresh _).bind fun stored _ => (nests_statement _).bind fun _ _ => ?_
    exact (c.nests_write value stored).bind fun _ _ => b.column.nests_writeBind stmt index stored

theorem ValueReader.nests_write (r : ValueReader) (out cursor index : String) :
    Nests k k (r.write out cursor index) fun _ => True := by
  unfold write
  cases r.converter with
  | none => exact r.column.nests_writeRead out cursor index
  | some c =>
    refine (nests_fresh _).bind fun stored _ => (nests_statement _).bind fun _ _ => ?_
    exact (r.column.nests_writeRead stored cursor index).bind fun _ _ => c.nests_write stored out

end Convert

namespace Rows

open DataAccess.Convert

theorem nests_declare (f : BoundField) (required : Bool) (cursor : String) :
    Nests k k (CursorIndex.declare f required cursor) fun _ => True := by
  refine (nests_fresh _).bind fun name _ => Nests.ite ?_ ?_
  · exact (nests_statement _).bind fun _ _ => nests_pure trivial
  · exact (nests_statement _).bind fun _ _ => nests_pure trivial

theorem BoundField.nests_writeRead (f : BoundField) (index : Option CursorIndex) (cursor : String) :
    Nests k k (f.writeRead index cursor) fun _ => True := by
  refine (nests_fresh _).bind fun name _ => (nests_statement _).bind fun _ _ => ?_
  split
  · exact (f.reader.nests_write _ _ _).bind fun _ _ => nests_pure trivial
  · refine (nests_fresh _).bind fun present _ => ?_
    refine (f.reader.nests_write name cursor present).fork.bind fun read hread => ?_
    refine (nests_enter _).bind fun _ _ => (nests_splice hread).bind fun _ _ => ?_
    refine (nests_next _).bind fun _ _ => (nests_statement _).bind fun _ _ => ?_
    exact nests_leave.bind fun _ _ => nests_pure trivial
  · exact (nests_statement _).bind fun _ _ => nests_pure trivial

namespace EntityRow

variable (row : EntityRow)

theorem nests_writeRow (cursor : String) : Nests k k (row.writeRow cursor) fun _ => True := by
  refine (Nests.mapM _ fun f => nests_declare f _ cursor).bind fun indices _ => ?_
  refine (Nests.mapM _ fun f => ?_).bind fun values _ => ?_
  · exact (f.1.nests_writeRead _ cursor).bind fun _ _ => nests_pure trivial
  · refine (nests_fresh _).bind fun out _ => (nests_statement _).bind fun _ _ => ?_
    exact nests_pure trivial

theorem grown_cursorConverter (c : ClassMembers) :
    Grown c ((ClassMembers.method row.cursorConverter).run c).2 := by
  refine grown_method _ (fun name c => ?_) c
  exact Nests.methodBody ((row.nests_writeRow "_cursor").bind fun entity _ =>
    nests_line (not_opensFlow_append _ (by decide))) c

theorem nests_write (out cursor : String) : Nests k k (row.write out cursor) fun _ => True := by
  refine (nests_onMembers row.grown_cursorConverter).bind fun method _ => ?_
  exact nests_receiver.bind fun this _ => nests_statement _

end EntityRow

namespace RelatedRows

variable (r : RelatedRows)

theorem nests_writeCollect : Nests k k r.writeCollect fun _ => True := by
  refine (nests_enter _).bind fun _ _ => (nests_line ?_).bind fun _ _ => (nests_line ?_).bind
    fun _ _ => (nests_leaveWith ?_).bind fun _ _ => ?_
  iterate 3 decide
  have hloop : ∀ readElement : Emit Unit, Nests (k + 2) (k + 2) readElement (fun _ => True) →
      Nests k k (do
        Emit.enter "while _cursor.move_to_next()"
        Emit.statement ("let _tmp_key: " ++ r.keyType.display)
        r.keyReader.write "_tmp_key" "_cursor" "_item_key_index"
        Emit.enter "if let Some(_tmp_relation) = _map.get_mut(&_tmp_key)"
        Emit.statement ("let _element: " ++ r.elementType.display)
        readElement
        Emit.statement "_tmp_relation.push(_element)"
        Emit.leave
        Emit.leave
        Emit.line "Ok(())") fun _ => True := by
    intro readElement hread
    refine (nests_enter _).bind fun _ _ => (nests_statement _).bind fun _ _ => ?_
    refine (r.keyReader.nests_write _ _ _).bind fun _ _ => (nests_enter _).bind fun _ _ => ?_
    refine (nests_statement _).bind fun _ _ => hread.bind fun _ _ => ?_
    refine (nests_statement _).bind fun _ _ => nests_leave.bind fun _ _ => nests_leave.bind fun _ _ => ?_
    exact nests_line (by decide)
  cases r.element with
  | entity row => exact hloop _ (row.nests_write "_element" "_cursor")
  | column name reader =>
    refine (nests_fresh _).bind fun index _ => (nests_statement _).bind fun _ _ => ?_
    exact hloop _ (reader.nests_write "_element" "_cursor" index)

theorem nests_writeFetch : Nests k k r.writeFetch fun _ => True := by
  refine (nests_enter _).bind fun _ _ => (nests_statement _).bind fun _ _ => ?_
  refine nests_leave.bind fun _ _ => ?_
  iterate 8 refine (nests_statement _).bind fun _ _ => ?_
  have hbind : Nests 0 0 (do
      r.keyBinder.write "_statement" "_arg_index" "_item"
      Emit.statement "_arg_index += 1") fun _ => True :=
    (r.keyBinder.nests_write _ _ _).bind fun _ _ => nests_statement _
  refine hbind.fork.bind fun bind hbind => (nests_enter _).bind fun _ _ => ?_
  refine (nests_splice hbind).bind fun _ _ => nests_leave.bind fun _ _ => ?_
  refine (nests_statement _).bind fun _ _ => ?_
  exact r.nests_writeCollect.fork.bind fun collect hcollect => nests_splice hcollect

theorem grown_fetcher (c : ClassMembers) :
    Grown c ((ClassMembers.method r.fetcher).run c).2 :=
  grown_method _ (fun _ c => r.nests_writeFetch.methodBody c) c

theorem nests_writeKey (cursor index : String) :
    Nests k k (r.writeKey cursor index) fun _ => True := by
  refine (nests_fresh _).bind fun key _ => (nests_statement _).bind fun _ _ => ?_
  exact (r.parentReader.nests_write key cursor index).bind fun _ _ => nests_pure trivial

theorem nests_writeEntry (map key : String) : Nests k k (r.writeEntry map key) fun _ => True := by
  refine Nests.ite ?_ (nests_statement _)
  exact (nests_enter _).bind fun _ _ => (nests_statement _).bind fun _ _ => nests_leave

theorem nests_writePrefetch (cursor index : String) :
    Nests k k (r.writePrefetch cursor index) fun _ => True := by
  rw [writePrefetch_eq]
  refine (nests_fresh _).bind fun map _ => (nests_statement _).bind fun _ _ => ?_
  have hbody : Nests 0 0 (do r.writeEntry map (← r.writeKey cursor index)) fun _ => True :=
    (r.nests_writeKey cursor index).bind fun key _ => r.nests_writeEntry map key
  refine hbody.fork.bind fun body hbody => (nests_onMembers r.grown_fetcher).bind fun fetch _ => ?_
  refine (nests_enter _).bind fun _ _ => (nests_splice hbody).bind fun _ _ => ?_
  refine nests_leave.bind fun _ _ => (nests_statement _).bind fun _ _ => ?_
  exact nests_receiver.bind fun this _ => (nests_statement _).bind fun _ _ => nests_pure trivial

theorem nests_writeLookup (map cursor index : String) :
    Nests k k (r.writeLookup map cursor index) fun _ => True := by
  refine (r.nests_writeKey cursor index).bind fun key _ => (nests_fresh _).bind fun name _ => ?_
  exact (nests_statement _).bind fun _ _ => nests_pure trivial

end RelatedRows

namespace RecordRow

variable (row : RecordRow)

theorem nests_writePrologue (cursor : String) :
    Nests k k (row.writePrologue cursor) fun _ => True := by
  refine (Nests.mapM _ fun f => ?_).bind fun indices _ => ?_
  · exact (nests_declare f _ cursor).bind fun _ _ => nests_pure trivial
  · exact (Nests.mapM _ fun r => r.nests_writePrefetch cursor _).bind fun _ _ => nests_pure trivial

theorem nests_write (out cursor : String) (state : RowState) :
    Nests k k (row.write out cursor state) fun _ => True := by
  refine (Nests.mapM _ fun f => ?_).bind fun fields _ => (Nests.mapM _ fun r => ?_).bind
    fun related _ => nests_statement _
  · exact (f.nests_writeRead _ cursor).bind fun _ _ => nests_pure trivial
  · exact (r.1.nests_writeLookup r.2 cursor _).bind fun _ _ => nests_pure trivial

end RecordRow

namespace Row

variable (row : Row)

theorem nests_writePrologue (cursor : String) :
    Nests k k (row.writePrologue cursor) fun _ => True := by
  cases row with
  | column | entity => exact nests_pure trivial
  | record row => exact row.nests_writePrologue cursor

theorem nests_write (out cursor : String) (state : RowState) :
    Nests k k (row.write out cursor state) fun _ => True := by
  cases row with
  | column reader => exact reader.nests_write out cursor "0"
  | entity row => exact row.nests_write out cursor
  | record row => exact row.nests_write out cursor state

end Row

namespace Result

variable (row : Row) (out cursor : String)

theorem nests_writeList : Nests k k (writeList row out cursor) fun _ => True := by
  refine (nests_statement _).bind fun _ _ => (row.nests_writePrologue cursor).bind fun state _ => ?_
  refine (nests_fresh _).bind fun item _ => (nests_enter _).bind fun _ _ => ?_
  refine (nests_statement _).bind fun _ _ => (row.nests_write item cursor state).bind fun _ _ => ?_
  exact (nests_statement _).bind fun _ _ => nests_leave

theorem nests_writeSingle (empty : Option String) :
    Nests k k (writeSingle row empty out cursor) fun _ => True := by
  refine (nests_statement _).bind fun _ _ => (row.nests_writePrologue cursor).bind fun state _ => ?_
  refine (nests_enter _).bind fun _ _ => (row.nests_write out cursor state).bind fun _ _ => ?_
  refine (nests_next _).bind fun _ _ => ?_
  cases empty with
  | some text => exact (nests_statement _).bind fun _ _ => nests_leave
  | none => exact (nests_statement _).bind fun _ _ => nests_leave

theorem nests_writeOptional (type present absent : String) :
    Nests k k (writeOptional row type present absent out cursor) fun _ => True := by
  refine (nests_statement _).bind fun _ _ => (row.nests_writePrologue cursor).bind fun state _ => ?_
  refine (nests_fresh _).bind fun value _ => (nests_enter _).bind fun _ _ => ?_
  refine (nests_statement _).bind fun _ _ => (row.nests_write value cursor state).bind fun _ _ => ?_
  refine (nests_statement _).bind fun _ _ => (nests_next _).bind fun _ _ => ?_
  exact (nests_statement _).bind fun _ _ => nests_leave

theorem nests_write (r : Result) : Nests k k (r.write out cursor) fun _ => True := by
  unfold write
  cases r.form with
  | single empty => exact nests_writeSingle r.row out cursor empty
  | list => exact nests_writeList r.row out cursor
  | optional | frameworkOptional => exact nests_writeOptional r.row out cursor _ _ _

end Result

end Rows

end DataAccess
