import DataAccess.Proofs.Code.LineStarts
import DataAccess.Proofs.Rows.Writing
import DataAccess.Rows.Result

/-!
The code that reads a result is plain: converted columns, fields, related rows and the loops around
them use variables of their own and end at the depth at which they start.
-/

set_option autoImplicit false

namespace DataAccess

open Code Emit

variable {names : List String} {object : String} {k : Nat}

namespace Code

/-- A new variable whose name starts as one of the given names. -/
theorem only_freshOf {P : String → Prop} {wish : String} (names : List String) (head : String)
    (hmem : head ∈ names)
    (hbase : Starts head (localBase wish)) : EmitsOnly P object k k (fresh wish) (Opens names) := by
  refine (only_fresh wish).imp (fun _ h => h) fun x hx => ?_
  obtain ⟨n, rfl⟩ := hx
  exact ⟨head, hmem, List.IsPrefix.trans hbase (starts_numbered _ n)⟩

end Code

namespace Convert

/-- The names of the variables of a conversion. -/
def conversionNames : List String := ["_tmp", "_value", "_converted"]

theorem only_callee {P : String → Prop} (m : Schema.CustomConverter) :
    EmitsOnly P object k k (Converter.callee m) fun _ => True := by
  refine only_receiver.bind fun this _ => ?_
  cases m.kind with
  | static => exact only_pure trivial
  | constructed => exact (only_onMembers _).bind fun _ _ => only_pure trivial
  | provided => exact (only_onMembers _).bind fun _ _ => only_pure trivial

theorem Converter.only_write (hnames : conversionNames ⊆ names) (c : Converter)
    {input output : String} (houtput : Opens names output) :
    EmitsOnly (PlainLine names object) object k k (c.write input output) fun _ => True := by
  induction c generalizing input output k with
  | identity | boolToInt | intToBool | optionBoolToInt | optionIntToBool =>
    refine only_statement ?_
    simp only [String.append_assoc]
    exact .use (houtput.append _)
  | custom m =>
    refine (only_callee m).bind fun method _ => only_statement ?_
    simp only [String.append_assoc]
    exact .use (houtput.append _)
  | nullSafe inner ih =>
    refine (only_freshOf names "_value" (hnames (by decide)) (by decide)).bind fun value _ => ?_
    refine (only_freshOf names "_converted" (hnames (by decide)) (by decide)).bind
      fun converted hconverted => ?_
    have hbody : EmitsOnly (PlainLine names object) object 0 0 (do
        Emit.statement ("let " ++ converted ++ ": " ++ inner.target.display)
        inner.write value converted
        Emit.statement (output ++ " = Some(" ++ converted ++ ")")) fun _ => True := by
      refine (only_statement ?_).bind fun _ _ => (ih hconverted).bind fun _ _ => only_statement ?_
      · simp only [String.append_assoc]
        exact .declare (hconverted.append _)
      · simp only [String.append_assoc]
        exact .use (houtput.append _)
    refine hbody.fork.bind fun body hbody => (only_enter ?_).bind fun _ _ => ?_
    · simp only [String.append_assoc]
      exact .keyword (Opens.append (by decide) _)
    refine (only_line ?_).bind fun _ _ => (only_enter ?_).bind fun _ _ => ?_
    · simp only [String.append_assoc]
      exact .keyword (Opens.append (by decide) _)
    · simp only [String.append_assoc]
      exact .keyword (Opens.append (by decide) _)
    refine (only_splice hbody).bind fun _ _ => (only_leave ?_).bind fun _ _ => only_leave ?_
    · exact .keyword (by decide)
    · exact .keyword (by decide)
  | chain first second hfirst hsecond =>
    refine (only_freshOf names "_tmp" (hnames (by decide)) (by decide)).bind
      fun middle hmiddle => ?_
    refine (only_statement ?_).bind fun _ _ => (hfirst hmiddle).bind fun _ _ => hsecond houtput
    simp only [String.append_assoc]
    exact .declare (hmiddle.append _)

theorem ColumnType.only_writeRead (c : ColumnType) {out : String} (hout : Opens names out)
    (cursor index : String) :
    EmitsOnly (PlainLine names object) object k k (c.writeRead out cursor index) fun _ => True := by
  unfold writeRead
  split
  · refine (only_enter ?_).bind fun _ _ => (only_statement ?_).bind fun _ _ => ?_
    · simp only [String.append_assoc]
      exact .keyword (Opens.append (by decide) _)
    · simp only [String.append_assoc]
      exact .use (hout.append _)
    refine (only_next ?_).bind fun _ _ => (only_statement ?_).bind fun _ _ => only_leave ?_
    · exact .keyword (by decide)
    · simp only [String.append_assoc]
      exact .use (hout.append _)
    · exact .keyword (by decide)
  · refine only_statement ?_
    simp only [String.append_assoc]
    exact .use (hout.append _)

theorem ValueReader.only_write (hnames : conversionNames ⊆ names) (r : ValueReader) {out : String}
    (hout : Opens names out) (cursor index : String) :
    EmitsOnly (PlainLine names object) object k k (r.write out cursor index) fun _ => True := by
  unfold write
  cases r.converter with
  | none => exact r.column.only_writeRead hout cursor index
  | some c =>
    refine (only_freshOf names "_tmp" (hnames (by decide)) (by decide)).bind
      fun stored hstored => (only_statement ?_).bind fun _ _ => ?_
    · simp only [String.append_assoc]
      exact .declare (hstored.append _)
    · exact (r.column.only_writeRead hstored cursor index).bind fun _ _ => c.only_write hnames hout

end Convert

namespace Rows

open DataAccess.Convert

/-- The names of the variables of the code that reads a result. -/
def readingNames : List String :=
  conversionNames ++ ["_cursor_index_of_", "_item", "_collection_", "_result"]

/-- A line of the code that reads a result. -/
abbrev ReadingLine (object : String) : String → Prop := PlainLine readingNames object

theorem conversionNames_subset : conversionNames ⊆ readingNames := List.subset_append_left _ _

theorem only_declare (f : BoundField) (required : Bool) (cursor : String) :
    EmitsOnly (ReadingLine object) object k k (CursorIndex.declare f required cursor)
      fun _ => True := by
  refine (only_freshOf readingNames "_cursor_index_of_" (by decide)
    (starts_localBase "cursor_index_of_" _ (by decide) (by decide))).bind fun name hname => ?_
  have hline : ∀ text, ReadingLine object ("let " ++ (name ++ text)) :=
    fun text => .declare (hname.append text)
  split
  · refine (only_statement ?_).bind fun _ _ => only_pure trivial
    simpa only [String.append_assoc] using hline _
  · refine (only_statement ?_).bind fun _ _ => only_pure trivial
    simpa only [String.append_assoc] using hline _

theorem BoundField.only_writeRead (f : BoundField) (index : Option CursorIndex) (cursor : String) :
    EmitsOnly (ReadingLine object) object k k (f.writeRead index cursor) fun _ => True := by
  refine (only_freshOf readingNames "_tmp" (by decide)
    (starts_localBase "tmp_" _ (by decide) (by decide))).bind fun name hname => ?_
  have hread : ∀ {depth : Nat} (index : String), EmitsOnly (ReadingLine object) object depth depth
      (f.reader.write name cursor index) fun _ => True :=
    fun index => f.reader.only_write conversionNames_subset hname cursor index
  have habsent : ReadingLine object (name ++ " = None" ++ ";") := by
    rw [String.append_assoc]
    exact .use (hname.append _)
  refine (only_statement ?_).bind fun _ _ => ?_
  · simp only [String.append_assoc]
    exact .declare (hname.append _)
  split
  · exact (hread _).bind fun _ _ => only_pure trivial
  · refine (only_fresh _).bind fun present _ => (hread present).fork.bind fun read hread => ?_
    refine (only_enter ?_).bind fun _ _ => (only_splice hread).bind fun _ _ => ?_
    · simp only [String.append_assoc]
      exact .keyword (Opens.append (by decide) _)
    refine (only_next (.keyword (by decide))).bind fun _ _ => (only_statement habsent).bind
      fun _ _ => ?_
    exact (only_leave (.keyword (by decide))).bind fun _ _ => only_pure trivial
  · exact (only_statement habsent).bind fun _ _ => only_pure trivial

theorem EntityRow.only_write (row : EntityRow) {out : String} (hout : Opens readingNames out)
    (cursor : String) :
    EmitsOnly (ReadingLine object) object k k (row.write out cursor) fun _ => True := by
  refine (only_onMembers _).bind fun method _ => only_receiver.bind fun this _ => only_statement ?_
  simp only [String.append_assoc]
  exact .use (hout.append _)

namespace RelatedRows

variable (r : RelatedRows)

theorem only_writeKey (cursor index : String) :
    EmitsOnly (ReadingLine object) object k k (r.writeKey cursor index) fun _ => True := by
  refine (only_freshOf readingNames "_tmp" (by decide) (by decide)).bind fun key hkey => ?_
  refine (only_statement ?_).bind fun _ _ => ?_
  · simp only [String.append_assoc]
    exact .declare (hkey.append _)
  · exact (r.parentReader.only_write conversionNames_subset hkey cursor index).bind
      fun _ _ => only_pure trivial

theorem only_writeEntry {map : String} (hmap : Opens readingNames map) (key : String) :
    EmitsOnly (ReadingLine object) object k k (r.writeEntry map key) fun _ => True := by
  unfold writeEntry
  split
  · refine (only_enter ?_).bind fun _ _ => (only_statement ?_).bind fun _ _ => only_leave ?_
    · simp only [String.append_assoc]
      exact .keyword (Opens.append (by decide) _)
    · simp only [String.append_assoc]
      exact .use (hmap.append _)
    · exact .keyword (by decide)
  · refine only_statement ?_
    simp only [String.append_assoc]
    exact .use (hmap.append _)

theorem only_writeFetchCall {cursor : String} (hcursor : Opens keywords cursor)
    (map fetch : String) :
    EmitsOnly (ReadingLine object) object (k + 1) k (writeFetchCall map cursor fetch)
      fun _ => True := by
  refine (only_leave (.keyword (by decide))).bind fun _ _ => (only_statement ?_).bind fun _ _ => ?_
  · simp only [String.append_assoc]
    exact .keyword (hcursor.append _)
  · refine only_receiver.bind fun this hthis => (only_statement ?_).bind fun _ _ => only_pure trivial
    subst hthis
    simp only [String.append_assoc]
    exact .fetch fetch map

theorem only_writePrefetch {cursor : String} (hcursor : Opens keywords cursor) (index : String) :
    EmitsOnly (ReadingLine object) object k k (r.writePrefetch cursor index) fun _ => True := by
  rw [writePrefetch_eq]
  refine (only_freshOf readingNames "_collection_" (by decide)
    (starts_localBase "collection_" _ (by decide) (by decide))).bind fun map hmap => ?_
  refine (only_statement ?_).bind fun _ _ => ?_
  · simp only [String.append_assoc]
    exact .declareMut (hmap.append _)
  have hbody : EmitsOnly (ReadingLine object) object 0 0
      (do r.writeEntry map (← r.writeKey cursor index)) fun _ => True :=
    (r.only_writeKey cursor index).bind fun key _ => r.only_writeEntry hmap key
  refine hbody.fork.bind fun body hbody => (only_onMembers _).bind fun fetch _ => ?_
  refine (only_enter ?_).bind fun _ _ => (only_splice hbody).bind fun _ _ => ?_
  · simp only [String.append_assoc]
    exact .keyword (Opens.append (by decide) _)
  · exact only_writeFetchCall hcursor map fetch

theorem only_writeLookup (map cursor index : String) :
    EmitsOnly (ReadingLine object) object k k (r.writeLookup map cursor index) fun _ => True := by
  refine (r.only_writeKey cursor index).bind fun key _ => ?_
  refine (only_freshOf readingNames "_tmp" (by decide)
    (starts_localBase "tmp_" _ (by decide) (by decide))).bind fun name hname => ?_
  refine (only_statement ?_).bind fun _ _ => only_pure trivial
  simp only [String.append_assoc]
  exact .declare (hname.append _)

end RelatedRows

namespace RecordRow

variable (row : RecordRow)

theorem only_writePrologue {cursor : String} (hcursor : Opens keywords cursor) :
    EmitsOnly (ReadingLine object) object k k (row.writePrologue cursor) fun _ => True := by
  refine (EmitsOnly.mapM _ fun f _ => ?_).bind fun indices _ => ?_
  · exact (only_declare f _ cursor).bind fun _ _ => only_pure trivial
  · refine (EmitsOnly.mapM _ fun r _ => ?_).bind
      fun maps _ => only_pure trivial
    exact r.only_writePrefetch hcursor _

theorem only_write {out : String} (hout : Opens readingNames out) (cursor : String)
    (state : RowState) :
    EmitsOnly (ReadingLine object) object k k (row.write out cursor state) fun _ => True := by
  refine (EmitsOnly.mapM _ fun f _ => ?_).bind fun fields _ => ?_
  · exact (f.only_writeRead _ cursor).bind fun _ _ => only_pure trivial
  · refine (EmitsOnly.mapM _ fun r _ => ?_).bind fun related _ => ?_
    · exact (r.1.only_writeLookup r.2 cursor _).bind fun _ _ => only_pure trivial
    · refine only_statement ?_
      simp only [String.append_assoc]
      exact .use (hout.append _)

end RecordRow

namespace Row

theorem only_writePrologue (row : Row) {cursor : String} (hcursor : Opens keywords cursor) :
    EmitsOnly (ReadingLine object) object k k (row.writePrologue cursor) fun _ => True := by
  cases row with
  | column | entity => exact only_pure trivial
  | record row => exact row.only_writePrologue hcursor

theorem only_write (row : Row) {out : String} (hout : Opens readingNames out) (cursor : String)
    (state : RowState) :
    EmitsOnly (ReadingLine object) object k k (row.write out cursor state) fun _ => True := by
  cases row with
  | column reader => exact reader.only_write conversionNames_subset hout cursor "0"
  | entity row => exact row.only_write hout cursor
  | record row => exact row.only_write hout cursor state

end Row

namespace Result

theorem only_writeList (row : Row) {out cursor : String} (hout : Opens readingNames out)
    (hcursor : Opens keywords cursor) :
    EmitsOnly (ReadingLine object) object k k (writeList row out cursor) fun _ => True := by
  refine (only_statement ?_).bind fun _ _ => (row.only_writePrologue hcursor).bind fun state _ => ?_
  · simp only [String.append_assoc]
    exact .declareMut (hout.append _)
  refine (only_freshOf readingNames "_item" (by decide) (by decide)).bind fun item hitem => ?_
  refine (only_enter ?_).bind fun _ _ => (only_statement ?_).bind fun _ _ => ?_
  · simp only [String.append_assoc]
    exact .keyword (Opens.append (by decide) _)
  · simp only [String.append_assoc]
    exact .declare (hitem.append _)
  refine (row.only_write hitem cursor state).bind fun _ _ => (only_statement ?_).bind fun _ _ => ?_
  · simp only [String.append_assoc]
    exact .use (hout.append _)
  · exact only_leave (.keyword (by decide))

theorem only_writeSingle (row : Row) (empty : Option String) {out cursor : String}
    (hout : Opens readingNames out) (hcursor : Opens keywords cursor) :
    EmitsOnly (ReadingLine object) object k k (writeSingle row empty out cursor) fun _ => True := by
  refine (only_statement ?_).bind fun _ _ => (row.only_writePrologue hcursor).bind fun state _ => ?_
  · simp only [String.append_assoc]
    exact .declare (hout.append _)
  refine (only_enter ?_).bind fun _ _ => (row.only_write hout cursor state).bind fun _ _ => ?_
  · simp only [String.append_assoc]
    exact .keyword (Opens.append (by decide) _)
  refine (only_next (.keyword (by decide))).bind fun _ _ => ?_
  cases empty with
  | some text =>
    refine (only_statement ?_).bind fun _ _ => only_leave (.keyword (by decide))
    simp only [String.append_assoc]
    exact .use (hout.append _)
  | none =>
    exact (only_statement (.keyword (by decide))).bind fun _ _ => only_leave (.keyword (by decide))

theorem only_writeOptional (row : Row) (type present absent : String) {out cursor : String}
    (hout : Opens readingNames out) (hcursor : Opens keywords cursor) :
    EmitsOnly (ReadingLine object) object k k (writeOptional row type present absent out cursor)
      fun _ => True := by
  refine (only_statement ?_).bind fun _ _ => (row.only_writePrologue hcursor).bind fun state _ => ?_
  · simp only [String.append_assoc]
    exact .declare (hout.append _)
  refine (only_freshOf readingNames "_value" (by decide) (by decide)).bind fun value hvalue => ?_
  refine (only_enter ?_).bind fun _ _ => (only_statement ?_).bind fun _ _ => ?_
  · simp only [String.append_assoc]
    exact .keyword (Opens.append (by decide) _)
  · simp only [String.append_assoc]
    exact .declare (hvalue.append _)
  refine (row.only_write hvalue cursor state).bind fun _ _ => (only_statement ?_).bind fun _ _ => ?_
  · simp only [String.append_assoc]
    exact .use (hout.append _)
  refine (only_next (.keyword (by decide))).bind fun _ _ => (only_statement ?_).bind fun _ _ => ?_
  · simp only [String.append_assoc]
    exact .use (hout.append _)
  · exact only_leave (.keyword (by decide))

/-- All lines of the code that reads a result are plain. -/
theorem only_write (r : Result) {out cursor : String} (hout : Opens readingNames out)
    (hcursor : Opens keywords cursor) :
    EmitsOnly (ReadingLine object) object k k (r.write out cursor) fun _ => True := by
  unfold write
  split
  · exact only_writeList r.row hout hcursor
  · exact only_writeSingle r.row _ hout hcursor
  · exact only_writeOptional r.row _ _ _ hout hcursor
  · exact only_writeOptional r.row _ _ _ hout hcursor

end Result

end Rows

end DataAccess
