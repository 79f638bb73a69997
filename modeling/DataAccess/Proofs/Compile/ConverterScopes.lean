import DataAccess.Compile.Converters
import DataAccess.Proofs.Diagnostics.Findings
import Mathlib.Data.List.FinRange
import Mathlib.Data.List.Nodup

/-!
The converters that classes bring into scope, and what is reported on the way. Entries of the scope
are told apart by their positions; a conversion that is defined twice is reported at every entry that
defines it. Such a report names the entries with other names, which are all the other entries if and
only if no two entries for the same types have one name.
-/

set_option autoImplicit false

namespace DataAccess.Compile

open Schema

/-! What counts, and what is reported for the rest. -/

/-- Both sides of the conversion have values. -/
def isUsable (m : ConverterMethod) : Bool := !m.source.isUnit && !m.target.isUnit

/-- The usable methods of the classes that are declared, in order. -/
def usableConverters (decls : Declarations) (classes : List String) : List CustomConverter :=
  (classes.filterMap decls.converterClass?).flatMap fun c =>
    (c.methods.filter isUsable).map (CustomConverter.ofMethod c)

/-- What is wrong with a method alone. -/
def problemOfMethod? (m : ConverterMethod) : Option Problem :=
  if m.source.isUnit then some .converterFromUnit
  else if m.target.isUnit then some .converterToUnit
  else none

/-- The errors of one class: at `anchor` when it is not declared, at the class when it has no methods,
and at every method that is not usable. -/
def problemsOfClass (decls : Declarations) (anchor : Option String) (name : String) : Log :=
  match decls.converterClass? name with
  | none => [⟨.error, .converterClassUndeclared name, anchor⟩]
  | some c =>
    if c.methods = [] then [⟨.error, .converterClassEmpty, some c.name⟩]
    else c.methods.flatMap fun m => (problemOfMethod? m).toList.map fun problem =>
      ⟨.error, problem, some (CustomConverter.ofMethod c m).qualifiedName⟩

/-! Entries for the same types. -/

/-- The names of the other entries that convert between the types of the entry at `i`. -/
def otherNames (cs : List CustomConverter) (i : Fin cs.length) : List String :=
  ((List.finRange cs.length).filter fun j =>
    j ≠ i ∧ cs[j].source = cs[i].source ∧ cs[j].target = cs[i].target).map
    fun j => cs[j].qualifiedName

/-- An error at every entry whose conversion has other entries, with the names given for it. -/
def conflictReports (cs : List CustomConverter) (names : Fin cs.length → List String) : Log :=
  ((List.finRange cs.length).filter fun i => otherNames cs i ≠ []).map fun i =>
    ⟨.error, .duplicateConverters (names i), some cs[i].qualifiedName⟩

/-! Each step finds what is reported for it. -/

theorem finds_reportAt (anchor : String) (p : Problem) :
    Finds (reportAt anchor p) () fun _ => [⟨.error, p, some anchor⟩] :=
  (finds_error p).anchored _

theorem finds_converterOf (c : ConverterClass) (m : ConverterMethod) :
    Finds (converterOf c m) (if isUsable m then some (CustomConverter.ofMethod c m) else none)
      fun _ => (problemOfMethod? m).toList.map fun problem =>
        ⟨.error, problem, some (CustomConverter.ofMethod c m).qualifiedName⟩ := by
  have hreject : ∀ problem, Finds (do
      reportAt (CustomConverter.ofMethod c m).qualifiedName problem
      return (none : Option CustomConverter)) none
      fun _ => [⟨.error, problem, some (CustomConverter.ofMethod c m).qualifiedName⟩] :=
    fun problem => (finds_reportAt _ problem).bind (f := fun _ => pure none) (finds_pure none)
  unfold converterOf isUsable problemOfMethod?
  cases m.source.isUnit with
  | true => exact hreject .converterFromUnit
  | false =>
    cases m.target.isUnit with
    | true => exact hreject .converterToUnit
    | false => exact finds_pure _

theorem finds_convertersOfClass (decls : Declarations) (name : String) :
    Finds (convertersOfClass decls name) (usableConverters decls [name])
      (problemsOfClass decls · name) := by
  unfold convertersOfClass usableConverters problemsOfClass
  cases h : decls.converterClass? name with
  | none =>
    simp only [List.filterMap_cons, h, List.filterMap_nil, List.flatMap_nil]
    exact (finds_error _).bind (f := fun _ => pure []) (finds_pure [])
  | some c =>
    have hmethods := Finds.filterMapM (finds_converterOf c) c.methods
    have hvalue : c.methods.filterMap (fun m =>
        if isUsable m then some (CustomConverter.ofMethod c m) else none) =
        (c.methods.filter isUsable).map (CustomConverter.ofMethod c) := by
      rw [← List.filterMap_eq_map, List.filterMap_filter]
      rfl
    rw [hvalue] at hmethods
    simp only [List.filterMap_cons, h, List.filterMap_nil, List.flatMap_cons, List.flatMap_nil,
      List.append_nil]
    cases hall : c.methods with
    | nil =>
      have hempty := finds_reportAt c.name .converterClassEmpty
      exact hempty.bind (f := fun _ => [].filterMapM (converterOf c)) (finds_pure [])
    | cons m ms =>
      rw [hall] at hmethods
      exact hmethods

theorem usableConverters_eq_flatMap (decls : Declarations) (classes : List String) :
    usableConverters decls classes = classes.flatMap fun name => usableConverters decls [name] := by
  induction classes with
  | nil => rfl
  | cons name classes ih =>
    rw [List.flatMap_cons, ← ih]
    simp only [usableConverters, List.filterMap_cons]
    cases decls.converterClass? name <;> simp

/-! Entries by their positions. -/

section Positions

variable (cs : List CustomConverter) (i : Fin cs.length)

/-- The positions of the entries for the types of the entry at `i`, its own among them. -/
def positionsLike : List (Fin cs.length) :=
  (List.finRange cs.length).filter fun j =>
    cs[j].source = cs[i].source ∧ cs[j].target = cs[i].target

theorem mem_positionsLike_self : i ∈ positionsLike cs i := by
  simp [positionsLike]

theorem nodup_positionsLike : (positionsLike cs i).Nodup := (List.nodup_finRange _).filter _

theorem filter_eq_map_filter (p : CustomConverter → Bool) :
    cs.filter p = ((List.finRange cs.length).filter fun j => p cs[j]).map fun j => cs[j] := by
  conv_lhs => rw [← List.map_get_finRange cs]
  exact List.filter_map

theorem filter_like_eq :
    (cs.filter fun d => d.source = cs[i].source && d.target = cs[i].target) =
      (positionsLike cs i).map fun j => cs[j] := by
  rw [filter_eq_map_filter, positionsLike]
  congr 2
  funext j
  simp

theorem otherNames_eq :
    otherNames cs i = ((positionsLike cs i).erase i).map fun j => cs[j].qualifiedName := by
  rw [(nodup_positionsLike cs i).erase_eq_filter, positionsLike, List.filter_filter, otherNames]
  congr 2
  funext j
  exact Bool.eq_iff_iff.2 (by simp)

theorem mem_otherNames_iff {name : String} : name ∈ otherNames cs i ↔
    ∃ j, j ≠ i ∧ cs[j].source = cs[i].source ∧ cs[j].target = cs[i].target ∧
      cs[j].qualifiedName = name := by
  simp [otherNames, and_assoc]

/-- What a report names: the other entries, but for those with the name of the entry itself. -/
theorem conflictsOf_eq :
    conflictsOf cs cs[i] = (otherNames cs i).filter (· ≠ cs[i].qualifiedName) := by
  rw [conflictsOf, filter_like_eq, otherNames_eq, (nodup_positionsLike cs i).erase_eq_filter]
  simp only [List.map_map, List.filter_map, List.filter_filter]
  congr 1
  refine List.filter_congr fun j _ => ?_
  by_cases hj : j = i
  · simp [hj]
  · simp [hj]

theorem isDuplicate_iff : isDuplicate cs cs[i] = true ↔ otherNames cs i ≠ [] := by
  have hothers := List.length_erase_of_mem (mem_positionsLike_self cs i)
  rw [isDuplicate, List.countP_eq_length_filter, filter_like_eq, List.length_map, otherNames_eq,
    ne_eq, List.map_eq_nil_iff, ← List.length_eq_zero_iff, hothers, decide_eq_true_eq]
  omega

end Positions

theorem finds_reportDuplicates (cs : List CustomConverter) :
    Finds (reportDuplicates cs) () fun _ =>
      conflictReports cs fun i => (otherNames cs i).filter (· ≠ cs[i].qualifiedName) := by
  have hloop := Finds.forM (fun c : CustomConverter =>
    finds_reportAt c.qualifiedName (.duplicateConverters (conflictsOf cs c)))
    (cs.filter (isDuplicate cs))
  have hreports : ((cs.filter (isDuplicate cs)).flatMap fun c =>
      [(⟨.error, .duplicateConverters (conflictsOf cs c), some c.qualifiedName⟩ : Diagnostic)]) =
      conflictReports cs fun i => (otherNames cs i).filter (· ≠ cs[i].qualifiedName) := by
    rw [← List.map_eq_flatMap, filter_eq_map_filter, List.map_map, conflictReports]
    have hpositions : ((List.finRange cs.length).filter fun j => isDuplicate cs cs[j]) =
        (List.finRange cs.length).filter fun i => otherNames cs i ≠ [] :=
      List.filter_congr fun i _ => Bool.eq_iff_iff.2 ((isDuplicate_iff cs i).trans decide_eq_true_iff.symm)
    rw [hpositions]
    refine List.map_congr_left fun i _ => ?_
    rw [Function.comp_apply, conflictsOf_eq]
  rw [hreports] at hloop
  exact hloop

theorem finds_convertersInScope (decls : Declarations) (classes : List String) :
    let scope := usableConverters decls classes
    Finds (convertersInScope decls classes) scope fun anchor =>
      classes.flatMap (problemsOfClass decls anchor) ++
        conflictReports scope fun i => (otherNames scope i).filter (· ≠ scope[i].qualifiedName) := by
  intro scope
  have hclasses := Finds.mapM (finds_convertersOfClass decls) classes
  have hduplicates := (finds_reportDuplicates scope).bind (f := fun _ => pure scope) (finds_pure scope)
  have hscope : (classes.map fun name => usableConverters decls [name]).flatten = scope := by
    rw [← List.flatMap_def, ← usableConverters_eq_flatMap]
  have hall := hclasses.bind (f := fun found => do
    reportDuplicates found.flatten
    return found.flatten) (hscope ▸ hduplicates)
  rw [hscope] at hall
  simp only [List.append_nil] at hall
  exact hall

theorem isError_of_mem_problemsOfClass {decls : Declarations} {anchor : Option String} {name : String}
    {d : Diagnostic} (h : d ∈ problemsOfClass decls anchor name) : d.isError = true := by
  unfold problemsOfClass at h
  split at h
  · obtain rfl := List.mem_singleton.1 h
    rfl
  · split at h
    · obtain rfl := List.mem_singleton.1 h
      rfl
    · obtain ⟨m, -, hm⟩ := List.mem_flatMap.1 h
      obtain ⟨problem, -, rfl⟩ := List.mem_map.1 hm
      rfl

theorem isError_of_mem_conflictReports {cs : List CustomConverter} {names : Fin cs.length → List String}
    {d : Diagnostic} (h : d ∈ conflictReports cs names) : d.isError = true := by
  obtain ⟨i, -, rfl⟩ := List.mem_map.1 h
  rfl

theorem nodup_entries_iff (cs : List CustomConverter) :
    (cs.map fun c => (c.source, c.target, c.qualifiedName)).Nodup ↔
      ∀ i, cs[i].qualifiedName ∉ otherNames cs i := by
  have hpositions : (cs.map fun c => (c.source, c.target, c.qualifiedName)) =
      (List.finRange cs.length).map fun i : Fin cs.length =>
        (cs[i].source, cs[i].target, cs[i].qualifiedName) := by
    conv_lhs => rw [← List.map_get_finRange cs]
    exact List.map_map
  rw [hpositions, List.nodup_map_iff_inj_on (List.nodup_finRange _)]
  simp only [mem_otherNames_iff, Prod.mk.injEq]
  constructor
  · rintro hinj i ⟨j, hne, hsource, htarget, hname⟩
    exact hne (hinj j (List.mem_finRange j) i (List.mem_finRange i) ⟨hsource, htarget, hname⟩)
  · rintro hnames j - i - ⟨hsource, htarget, hname⟩
    exact not_not.1 fun hne => hnames i ⟨j, hne, hsource, htarget, hname⟩

/-- Nothing is left out of the reports if and only if no two entries for the same types have one name. -/
theorem conflictReports_filter_eq_iff (cs : List CustomConverter) :
    (conflictReports cs fun i => (otherNames cs i).filter (· ≠ cs[i].qualifiedName)) =
      conflictReports cs (otherNames cs) ↔
    (cs.map fun c => (c.source, c.target, c.qualifiedName)).Nodup := by
  rw [nodup_entries_iff, conflictReports, conflictReports, List.map_inj_left]
  have hreport : ∀ i : Fin cs.length,
      ((⟨.error, .duplicateConverters ((otherNames cs i).filter (· ≠ cs[i].qualifiedName)),
        some cs[i].qualifiedName⟩ : Diagnostic) =
        ⟨.error, .duplicateConverters (otherNames cs i), some cs[i].qualifiedName⟩) ↔
      cs[i].qualifiedName ∉ otherNames cs i := by
    intro i
    simp only [Diagnostic.mk.injEq, Problem.duplicateConverters.injEq, true_and, and_true]
    rw [List.filter_eq_self]
    constructor
    · exact fun hall hmem => of_decide_eq_true (hall _ hmem) rfl
    · exact fun hnot name hmem => decide_eq_true fun heq => hnot (heq ▸ hmem)
  constructor
  · intro hall i hmem
    have hsome : otherNames cs i ≠ [] := List.ne_nil_of_mem hmem
    exact (hreport i).1 (hall i (List.mem_filter.2 ⟨List.mem_finRange i, decide_eq_true hsome⟩)) hmem
  · exact fun hall i _ => (hreport i).2 (hall i)

/-- The scope holds the usable methods of the declared classes, in order; an error is reported for each
class that is not declared or has no methods, each method that is not usable, and each entry whose
conversion has other entries, and the anchor is as before. The reports of conflicts name all the
other entries if and only if no two entries for the same types have one name; else each of them
leaves out the entries with the name of its own. -/
theorem convertersInScope_reports_iff (decls : Declarations) (classes : List String) (l : Logger) :
    let scope := usableConverters decls classes
    let problems := classes.flatMap (problemsOfClass decls l.anchor)
    let r := (convertersInScope decls classes).run l
    r.1 = scope ∧ r.2.anchor = l.anchor ∧
    r.2.log = l.log ++ (problems ++
      conflictReports scope fun i => (otherNames scope i).filter (· ≠ scope[i].qualifiedName)) ∧
    (r.2.log = l.log ++ (problems ++ conflictReports scope (otherNames scope)) ↔
      (scope.map fun c => (c.source, c.target, c.qualifiedName)).Nodup) := by
  intro scope problems r
  have hrun := (finds_convertersInScope decls classes).run l
  have hlog : r.2.log = l.log ++ (problems ++
      conflictReports scope fun i => (otherNames scope i).filter (· ≠ scope[i].qualifiedName)) := by
    refine (congrArg (·.2.log) hrun).trans (congrArg (l.log ++ ·) ?_)
    refine Log.without_of_forall_isError fun d hd => ?_
    rcases List.mem_append.1 hd with hclass | hconflict
    · obtain ⟨name, -, hname⟩ := List.mem_flatMap.1 hclass
      exact isError_of_mem_problemsOfClass hname
    · exact isError_of_mem_conflictReports hconflict
  refine ⟨congrArg Prod.fst hrun, congrArg (·.2.anchor) hrun, hlog, ?_⟩
  rw [hlog, List.append_cancel_left_eq, List.append_cancel_left_eq]
  exact conflictReports_filter_eq_iff scope

end DataAccess.Compile
