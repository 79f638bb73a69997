import DataAccess.Delivery.Read
import DataAccess.Proofs.Delivery.LineKinds

/-!
The code that registers an observation. Whatever the delivery is and whatever the rows are read as, one
line of its code makes a call that registers, and that call lists the observed tables in order.
-/

set_option autoImplicit false

namespace DataAccess.Delivery

open Code Emit Rows
open ClassMembers (numbered)

/-- How the calls start that register an observation. -/
def registrationCalls : List String :=
  ["self.db.invalidation_tracker().create_live_data(", RuntimeNames.coroutines ++ "::create_flow(",
    RuntimeNames.library ++ "rx2::RxDaoc::", RuntimeNames.library ++ "rx3::RxDaoc::",
    RuntimeNames.limitOffsetDataSource ++ "::new(", RuntimeNames.limitOffsetPagingSource ++ "::new("]

/-- The line makes a call that registers an observation. -/
def Registers (text : String) : Prop := Opens registrationCalls text

instance (text : String) : Decidable (Registers text) := inferInstanceAs (Decidable (Opens _ _))

/-- The lines that register an observation. -/
def registrations (code : List Line) : List String :=
  (code.map Prod.snd).filter fun text => decide (Registers text)

/-- The call that registers a delivery of the given tables, up to the end of their list. -/
def ReadDelivery.registration (db statement : String) (inTransaction : Bool) (tables : List String) :
    ReadDelivery → String
  | .liveData _ =>
    db ++ ".invalidation_tracker().create_live_data(" ++ RuntimeNames.literalSlice tables ++ ", "
  | .flow _ =>
    RuntimeNames.coroutines ++ "::create_flow(" ++ db ++ ".clone(), " ++ toString inTransaction ++
      ", " ++ RuntimeNames.literalSlice tables ++ ", "
  | .rxObservable rx _ =>
    rx.factory ++ "(" ++ db ++ ".clone(), " ++ toString inTransaction ++ ", " ++
      RuntimeNames.literalSlice tables ++ ", "
  | .paging .dataSource _ =>
    RuntimeNames.limitOffsetDataSource ++ "::new(" ++ db ++ ".clone(), " ++ statement ++ ", " ++
      toString inTransaction ++ ", " ++ RuntimeNames.literalSlice tables ++ ", "
  | .paging .dataSourceFactory _ =>
    RuntimeNames.limitOffsetDataSource ++ "::new(" ++ db ++ ".clone(), " ++ statement ++
      ".clone(), " ++ toString inTransaction ++ ", " ++ RuntimeNames.literalSlice tables ++ ", "
  | .paging .pagingSource _ =>
    RuntimeNames.limitOffsetPagingSource ++ "::new(" ++ statement ++ ", " ++ db ++ ".clone(), " ++
      RuntimeNames.literalSlice tables ++ ", "
  | _ => ""

/-- The line registers a delivery of the given tables on the database of the object, or of a copy of
it. -/
def ReadDelivery.IsRegistration (delivery : ReadDelivery) (statement : String)
    (inTransaction : Bool) (tables : List String) (text : String) : Prop :=
  ∃ object, IsObject object ∧
    Starts (delivery.registration (object ++ ".db") statement inTransaction tables) text

/-- Exactly one line of the code registers an observation, and it is of the given kind. -/
def RegistersOnce (Q : String → Prop) (code : List Line) : Prop :=
  ∃ text, registrations code = [text] ∧ Q text

theorem registers_of_mem {head : String} (h : head ∈ registrationCalls) (rest : String) :
    Registers (head ++ rest) := ⟨head, h, starts_append head rest⟩

theorem registrations_append (xs ys : List Line) :
    registrations (xs ++ ys) = registrations xs ++ registrations ys := by
  simp [registrations]

theorem registrations_sunken (depth : Nat) (xs : List Line) :
    registrations (sunken depth xs) = registrations xs := by
  simp [registrations, sunken, Function.comp_def]

/-- How lines start that register nothing. -/
def silentHeads : List String :=
  plainHeads readingNames ++ statementNames ++ ["_this"] ++
    ["_this", "_transaction", "_cursor"].map ("let " ++ ·) ++
    ["Ok(", RuntimeNames.dataSourceFactory]

theorem silentHeads_apart : Apart silentHeads registrationCalls := by decide +kernel

/-- The line registers nothing. -/
def Silent (text : String) : Prop := ¬Registers text

theorem silent_of_opens {text : String} (h : Opens silentHeads text) : Silent text :=
  h.not_opens silentHeads_apart

theorem silent_of_mem {head : String} (h : head ∈ silentHeads) (rest : String) :
    Silent (head ++ rest) := silent_of_opens ⟨head, h, starts_append head rest⟩

/-- A copy of the object, as a closure owns it. -/
def IsCopy (object : String) : Prop := ∃ n, object = numbered "_this" n

theorem IsCopy.opens {object : String} (h : IsCopy object) : Opens ["_this"] object := by
  obtain ⟨n, rfl⟩ := h
  exact ⟨_, List.mem_cons_self, starts_numbered _ n⟩

theorem IsCopy.silent {object : String} (h : IsCopy object) (rest : String) :
    Silent (object ++ rest) :=
  silent_of_opens ((h.opens.append rest).mono (by simp [silentHeads]))

theorem silent_of_plain {object text : String} (hobject : IsCopy object)
    (h : PlainLine readingNames object text) : Silent text := by
  obtain h | ⟨statement, rest, hstatement, rfl⟩ | ⟨method, map, rfl⟩ := h.opens
  · exact silent_of_opens (h.mono (by simp [silentHeads]))
  · exact silent_of_opens ((hstatement.opens.append _).mono (by simp [silentHeads]))
  · exact hobject.silent _

theorem silent_declared (base : String) (hbase : "let " ++ base ∈ silentHeads) (n : Nat)
    (rest : String) : Silent ("let " ++ (numbered base n ++ rest)) :=
  silent_of_opens ⟨_, hbase, ((starts_numbered base n).append rest).behind "let "⟩

theorem silent_ok (value : String) : Silent ("Ok(" ++ value ++ ")") := by
  rw [String.append_assoc]
  exact silent_of_mem (by simp [silentHeads]) _

theorem silent_close (rest : String) : Silent ("\x7d" ++ rest) :=
  silent_of_mem (by simp [silentHeads, plainHeads, keywords]) rest

section Emission

variable {α β : Type} {object call : String} {k l m : Nat} {result : α → Prop} {Q Q' : String → Prop}

theorem registrations_eq_nil {xs : List Line} (h : ∀ x ∈ xs, Silent x.2) : registrations xs = [] := by
  refine List.filter_eq_nil_iff.2 fun text htext => ?_
  obtain ⟨x, hx, rfl⟩ := List.mem_map.1 htext
  exact fun hregisters => h x hx (of_decide_eq_true hregisters)

/-- Of the lines that the action writes exactly one registers an observation, and it is of the given
kind. -/
def EmitsCall (Q : String → Prop) (object : String) (k l : Nat) (act : Emit α) : Prop :=
  Emits object k l act fun _ xs => RegistersOnce Q xs

theorem EmitsCall.imp {act : Emit α} (h : EmitsCall Q object k l act)
    (hQ : ∀ text, Q text → Q' text) : EmitsCall Q' object k l act :=
  Emits.imp h fun _ _ ⟨text, hxs, htext⟩ => ⟨text, hxs, hQ text htext⟩

theorem emitsCall_enter (hcall : Registers call) (rest : String) :
    EmitsCall (Starts call) object k (k + 1) (enter (call ++ rest)) := by
  refine (emits_enter _).imp fun _ xs hxs => ⟨call ++ (rest ++ " \x7b"), ?_, starts_append _ _⟩
  have hregisters : Registers (call ++ (rest ++ " \x7b")) := Opens.append hcall _
  subst hxs
  simp [registrations, String.append_assoc, hregisters]

/-- What comes before the call. -/
theorem EmitsCall.behind {act : Emit α} {f : α → Emit β} (hact : EmitsOnly Silent object k l act result)
    (hf : ∀ a, result a → EmitsCall Q object l m (f a)) : EmitsCall Q object k m (act >>= f) := by
  refine Emits.bind hact fun a xs ⟨ha, hxs⟩ => ?_
  refine Emits.imp (hf a ha) fun _ ys ⟨text, hys, htext⟩ => ?_
  exact ⟨text, by rw [registrations_append, registrations_eq_nil hxs, hys, List.nil_append], htext⟩

/-- What follows the call. -/
theorem EmitsCall.andThen {act : Emit α} {f : α → Emit β} (hact : EmitsCall Q object k l act)
    (hf : ∀ a, EmitsOnly Silent object l m (f a) fun _ => True) :
    EmitsCall Q object k m (act >>= f) := by
  refine Emits.bind hact fun a xs ⟨text, hxs, htext⟩ => ?_
  refine Emits.imp (hf a) fun _ ys ⟨_, hys⟩ => ?_
  exact ⟨text, by rw [registrations_append, registrations_eq_nil hys, hxs, List.append_nil], htext⟩

/-- A block of its own that holds the call. -/
theorem EmitsCall.fork {act : Emit Unit} (h : EmitsCall Q object 0 l act) :
    Emits object k k (fork act) fun code xs => xs = [] ∧ RegistersOnce Q code.lines := by
  refine emits_receiver.bind fun this _ ⟨hthis, hnone⟩ => ?_
  subst hthis hnone
  refine (Emits.forkAs h).bind fun p _ ⟨hnone, hp⟩ => (emits_pure p.2).imp fun code _ ⟨hcode, h⟩ => ?_
  subst hnone hcode h
  exact ⟨rfl, hp⟩

theorem emitsCall_splice {code : Block} (h : RegistersOnce Q code.lines) :
    EmitsCall Q object k k (splice code) := by
  obtain ⟨text, hcode, htext⟩ := h
  refine (emits_splice code).imp fun _ xs hxs => ⟨text, ?_, htext⟩
  rw [hxs, registrations_sunken, hcode]

theorem only_capture : EmitsOnly Silent object k k captureReceiver IsCopy :=
  only_captureReceiver (silent_declared "_this" (by simp [silentHeads]))

theorem only_writeQuery (hobject : IsCopy object) (result : Result) (statement : String)
    (signal : Option String) (inTransaction : Bool) :
    EmitsOnly Silent object 0 0 (ReadBinder.writeQuery result statement signal inTransaction)
      fun _ => True := by
  have hbegin : EmitsOnly Silent object 0 0 (beginTransaction (object ++ ".db")) fun _ => True := by
    refine (only_fresh "transaction").bind fun transaction ⟨n, hname⟩ => only_statement ?_
    subst hname
    simp only [String.append_assoc]
    exact silent_declared "_transaction" (by simp [silentHeads]) n _
  have hcommit : EmitsOnly Silent object 0 0 (commit (object ++ ".db")) fun _ => True := by
    refine only_statement ?_
    simp only [String.append_assoc]
    exact hobject.silent _
  unfold ReadBinder.writeQuery
  refine only_db.bind fun db hdb => ?_
  subst hdb
  refine EmitsOnly.checked hbegin ?_
  refine (only_fresh "cursor").bind fun cursor ⟨n, hcursor⟩ => ?_
  refine (only_fresh "result").bind fun value ⟨v, hvalue⟩ => ?_
  refine (only_statement ?_).bind fun _ _ => ?_
  · subst hcursor
    simp only [String.append_assoc]
    exact silent_declared "_cursor" (by simp [silentHeads]) n _
  have hout : Opens readingNames value := ⟨"_result", by decide, hvalue ▸ starts_numbered _ v⟩
  have hreads : Opens keywords cursor := ⟨"_cursor", by decide, hcursor ▸ starts_numbered _ n⟩
  refine ((result.only_write hout hreads).imp (fun _ h => silent_of_plain hobject h)
    fun _ _ => trivial).bind fun _ _ => ?_
  exact EmitsOnly.checked hcommit (only_line (silent_ok value))

theorem emitsCall_writeDeferred (hcall : Registers call) (tail : String) (result : Result)
    (statement : String) (signal : Option String) (inTransaction : Bool) :
    EmitsCall (Starts call) object k k
      (ReadBinder.writeDeferred call tail result statement signal inTransaction) := by
  refine .behind only_capture fun this hthis => ?_
  have hbody := only_writeQuery hthis result statement signal inTransaction
  refine .behind hbody.forkAs fun (_, body) ⟨_, hlines⟩ => ?_
  rw [String.append_assoc]
  refine (emitsCall_enter hcall _).andThen fun _ => ?_
  exact (only_splice hlines).bind fun _ _ => only_leaveWith (silent_close tail)

theorem emitsCall_writePage (hcall : Registers call) (tail : String) {copy : String}
    (hcopy : IsCopy copy) (result : Result) :
    EmitsCall (Starts call) object k k (ReadBinder.writePage call tail copy result) := by
  refine .behind (only_fresh "cursor") fun cursor ⟨n, hcursor⟩ => ?_
  have hreads : Opens keywords cursor := ⟨"_cursor", by decide, hcursor ▸ starts_numbered _ n⟩
  have hbody : EmitsOnly Silent copy 0 0 (do
      let page ← fresh "result"
      result.write page cursor
      line ("Ok(" ++ page ++ ")")) fun _ => True := by
    refine (only_fresh "result").bind fun page ⟨v, hpage⟩ => ?_
    have hout : Opens readingNames page := ⟨"_result", by decide, hpage ▸ starts_numbered _ v⟩
    refine ((result.only_write hout hreads).imp (fun _ h => silent_of_plain hcopy h)
      fun _ _ => trivial).bind fun _ _ => only_line (silent_ok page)
  refine .behind hbody.forkAs fun (_, body) ⟨_, hlines⟩ => ?_
  simp only [String.append_assoc]
  refine (emitsCall_enter hcall _).andThen fun _ => ?_
  exact (only_splice hlines).bind fun _ _ => only_leaveWith (silent_close tail)

theorem registers_factory (rx : RxType) (rest : String) : Registers (rx.factory ++ rest) := by
  have hmodule : RuntimeNames.library ++ rx.version.moduleName ++ "::RxDaoc::" ∈ registrationCalls := by
    cases rx.version <;> simp [registrationCalls, RuntimeNames.library, RxVersion.moduleName]
  rw [RxType.factory, String.append_assoc]
  exact registers_of_mem hmodule _

variable (result : Result) (statement : String) (inTransaction : Bool) (tables : NameSet)

theorem emitsCall_writePaging (kind : PagingKind) :
    EmitsCall (ReadDelivery.IsRegistration (.paging kind tables) statement inTransaction tables.toList)
      "self" 0 0 (ReadBinder.writePaging kind tables result statement inTransaction) := by
  have hsource : ∀ rest, Registers (RuntimeNames.limitOffsetDataSource ++ "::new(" ++ rest) :=
    registers_of_mem (by simp [registrationCalls])
  have hpaging : ∀ rest, Registers (RuntimeNames.limitOffsetPagingSource ++ "::new(" ++ rest) :=
    registers_of_mem (by simp [registrationCalls])
  refine .behind only_capture fun this hthis => .behind only_db fun db hdb => ?_
  subst hdb
  cases kind with
  | dataSource =>
    refine (emitsCall_writePage ?_ _ hthis result).imp fun text htext => ⟨"self", .inl rfl, htext⟩
    simp only [String.append_assoc] at hsource ⊢
    exact hsource _
  | pagingSource =>
    refine (emitsCall_writePage ?_ _ hthis result).imp fun text htext => ⟨"self", .inl rfl, htext⟩
    simp only [String.append_assoc] at hpaging ⊢
    exact hpaging _
  | dataSourceFactory =>
    refine .behind (only_fresh "this") fun source ⟨n, hcopy⟩ => ?_
    have hinner : EmitsCall (ReadDelivery.IsRegistration (.paging .dataSourceFactory tables) statement
        inTransaction tables.toList) "self" 0 0 (do
          Emit.statement ("let " ++ source ++ " = " ++ this ++ ".clone()")
          ReadBinder.writePage (RuntimeNames.limitOffsetDataSource ++ "::new(" ++ this ++
            ".db.clone(), " ++ statement ++ ".clone(), " ++ toString inTransaction ++ ", " ++
            RuntimeNames.literalSlice tables.toList ++ ", ") ")" source result) := by
      refine .behind (only_statement ?_) fun _ _ => ?_
      · subst hcopy
        simp only [String.append_assoc]
        exact silent_declared "_this" (by simp [silentHeads]) n _
      refine (emitsCall_writePage ?_ _ ⟨n, hcopy⟩ result).imp fun text htext =>
        ⟨this, .inr hthis, ?_⟩
      · simp only [String.append_assoc] at hsource ⊢
        exact hsource _
      · have hdb : ".db" ++ ".clone(), " = ".db.clone(), " := rfl
        simpa only [ReadDelivery.registration, String.append_assoc, hdb] using htext
    refine Emits.bind hinner.fork fun inner _ ⟨hnone, hcode⟩ => ?_
    subst hnone
    refine EmitsCall.behind (only_enter ?_) fun _ _ => (emitsCall_splice hcode).andThen fun _ =>
      only_leaveWith (silent_close ")")
    simp only [String.append_assoc]
    exact silent_of_mem (by simp [silentHeads]) _

/-- Whatever is observed, one line of the code registers the delivery for exactly that. -/
theorem emitsCall_writeResult {delivery : ReadDelivery} (hobserved : delivery.observed? = some tables)
    (htables : tables.isEmpty = false) :
    EmitsCall (delivery.IsRegistration statement inTransaction tables.toList) "self" 0 0
      (ReadBinder.writeResult delivery result statement inTransaction) := by
  unfold ReadBinder.writeResult
  simp only [hobserved, htables, Option.map_some, Option.getD_some, Bool.false_eq_true, ↓reduceIte]
  refine .behind only_db fun db hdb => ?_
  subst hdb
  have hdeferred : ∀ {call : String}, Registers call →
      Starts (delivery.registration ("self" ++ ".db") statement inTransaction tables.toList) call →
        EmitsCall (delivery.IsRegistration statement inTransaction tables.toList) "self" 0 0
          (ReadBinder.writeDeferred call ")" result statement none inTransaction) :=
    fun hcall hlist => (emitsCall_writeDeferred hcall ")" result statement none inTransaction).imp
      fun _ htext => ⟨"self", .inl rfl, List.IsPrefix.trans hlist htext⟩
  cases delivery with
  | instant | cursor | suspending | listenableFuture | rxCallable => exact absurd hobserved nofun
  | paging kind =>
    obtain rfl := Option.some.inj hobserved
    exact emitsCall_writePaging result statement inTransaction _ kind
  | liveData =>
    obtain rfl := Option.some.inj hobserved
    have htracker : "self" ++ ".db" ++ ".invalidation_tracker().create_live_data(" ∈
        registrationCalls := by simp [registrationCalls]
    refine hdeferred ?_ ((starts_append _ _).append _)
    exact (((registers_of_mem htracker _).append _).append _).append _
  | flow =>
    obtain rfl := Option.some.inj hobserved
    have hflow : ∀ rest, Registers (RuntimeNames.coroutines ++ "::create_flow(" ++ rest) :=
      registers_of_mem (by simp [registrationCalls])
    refine hdeferred ?_ List.prefix_rfl
    simp only [String.append_assoc] at hflow ⊢
    exact hflow _
  | rxObservable rx =>
    obtain rfl := Option.some.inj hobserved
    refine hdeferred ?_ List.prefix_rfl
    simp only [String.append_assoc]
    exact registers_factory rx _

end Emission

end DataAccess.Delivery
