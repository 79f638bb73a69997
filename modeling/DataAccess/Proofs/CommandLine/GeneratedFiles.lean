import DataAccess.CommandLine.Run
import DataAccess.Proofs.Text.SnakeCase

/-!
What a run leaves of the generated files. A path that is written twice keeps the later text, so that
all sources are kept if and only if the paths are different, and that is, if and only if the words in
the names of the classes are.
-/

set_option autoImplicit false

namespace DataAccess.CommandLine

open Compile Project Schema

/-! Paths of generated files. -/

theorem join_inj {directory a b : String} : Path.join directory a = Path.join directory b ↔ a = b := by
  refine ⟨fun h => ?_, congrArg _⟩
  unfold Path.join Path.ofParts at h
  by_cases hparts : Path.parts directory = []
  · simpa [hparts] using h
  · simpa [String.intercalate_append_of_ne_nil hparts, String.append_right_inj] using h

theorem fileName_eq_iff {g g' : GeneratedDao} :
    g.fileName = g'.fileName ↔ Text.words g.implName = Text.words g'.implName := by
  rw [GeneratedDao.fileName, GeneratedDao.fileName, String.append_left_inj, Text.snakeCase_eq_iff]

/-- The paths are different if and only if the words in the names of the classes are. -/
theorem nodup_paths_iff (a : Arguments) (output : RoundOutput) :
    ((generatedFiles a output).map Prod.fst).Nodup ↔
      (output.daos.map fun dao => Text.words dao.implName).Nodup := by
  rw [generatedFiles, List.map_map, List.Nodup, List.Nodup, List.pairwise_map, List.pairwise_map]
  refine List.Pairwise.iff fun g g' => not_congr ?_
  exact join_inj.trans fileName_eq_iff

/-! Files that are written one after another. -/

/-- What is left of files that are written in this order. -/
def lastWritten : Files → Files
  | [] => []
  | (path, text) :: rest =>
    if path ∈ rest.map Prod.fst then lastWritten rest else (path, text) :: lastWritten rest

theorem lastWritten_sublist (generated : Files) : (lastWritten generated).Sublist generated := by
  fun_induction lastWritten generated with
  | case1 => exact .slnil
  | case2 path text rest _ ih => exact ih.cons _
  | case3 path text rest _ ih => exact ih.cons_cons _

theorem lastWritten_eq_self_iff (generated : Files) :
    lastWritten generated = generated ↔ (generated.map Prod.fst).Nodup := by
  fun_induction lastWritten generated with
  | case1 => simp
  | case2 path text rest hmem ih =>
    refine iff_of_false (fun h => ?_) fun h => (List.nodup_cons.1 h).1 hmem
    have hlength := congrArg List.length h
    have hrest := (lastWritten_sublist rest).length_le
    rw [List.length_cons] at hlength
    omega
  | case3 path text rest hmem ih =>
    rw [List.cons_inj_right, List.map_cons, List.nodup_cons, ih]
    exact (and_iff_right hmem).symm

/-- All files are left, in whatever order, if and only if no two of them have one path. -/
theorem lastWritten_perm_iff (generated : Files) :
    (lastWritten generated).Perm generated ↔ (generated.map Prod.fst).Nodup := by
  rw [← lastWritten_eq_self_iff]
  exact ⟨fun h => (lastWritten_sublist generated).eq_of_length h.length_eq, .of_eq⟩

/-- What a path holds is replaced, and nothing else. -/
theorem writeAll_eq {files after generated : Files}
    (h : writeAll files generated = (after, true)) :
    after = files.filter (·.1 ∉ generated.map Prod.fst) ++ lastWritten generated := by
  induction generated generalizing files with
  | nil =>
    obtain rfl : files = after := congrArg Prod.fst h
    simp [lastWritten]
  | cons file rest ih =>
    obtain ⟨path, text⟩ := file
    rw [writeAll, Files.write?] at h
    split at h
    · rename_i written hwritten
      split at hwritten
      · exact nomatch hwritten
      · obtain rfl := Option.some.inj hwritten
        have hothers : (files.filter (·.1 ≠ path)).filter (·.1 ∉ rest.map Prod.fst) =
            files.filter (·.1 ∉ path :: rest.map Prod.fst) := by
          rw [List.filter_filter]
          refine List.filter_congr fun file _ => ?_
          simp only [List.mem_cons, not_or, Bool.decide_and, Bool.and_comm]
        rw [ih h, List.filter_append, hothers, List.append_assoc, List.map_cons, lastWritten]
        by_cases hmem : path ∈ rest.map Prod.fst
        · rw [if_pos hmem, List.filter_cons_of_neg (by simpa using hmem), List.filter_nil]
          rfl
        · rw [if_neg hmem, List.filter_cons_of_pos (by simpa using hmem), List.filter_nil]
          rfl
    · exact absurd (congrArg Prod.snd h) Bool.false_ne_true

/-! Runs that do not fail. -/

section Runs

variable {openSchema : Declarations → Except String Verifier} {configHome : String} {files : Files}
  {arguments : List String} {a : Arguments} {declarations : String} {output : RoundOutput}

/-- Such a run leaves generated files, and beside them the files it found. -/
theorem files_run (hrequest : Request.ofArguments arguments = .compile a declarations)
    (hcompile : compile openSchema configHome files a declarations = .ok output)
    (hcode : (run openSchema configHome files arguments).code ≠ failureCode) :
    (run openSchema configHome files arguments).files =
      files.filter (·.1 ∉ (generatedFiles a output).map Prod.fst) ++
        lastWritten (generatedFiles a output) := by
  revert hcode
  rw [run, hrequest]
  simp only [hcompile]
  split
  · split
    · rename_i hwritten
      exact fun _ => writeAll_eq hwritten
    · exact fun hcode => absurd rfl hcode
  · exact fun hcode => absurd rfl hcode

/-- Classes with different names in camel case are all found in their files. -/
theorem files_run_of_isCamelCase (hrequest : Request.ofArguments arguments = .compile a declarations)
    (hcompile : compile openSchema configHome files a declarations = .ok output)
    (hcode : (run openSchema configHome files arguments).code ≠ failureCode)
    (hcamel : ∀ dao ∈ output.daos, Text.IsCamelCase dao.implName)
    (hnames : (output.daos.map GeneratedDao.implName).Nodup) :
    (run openSchema configHome files arguments).files =
      files.filter (·.1 ∉ (generatedFiles a output).map Prod.fst) ++ generatedFiles a output := by
  have hwords : (output.daos.map fun dao => Text.words dao.implName).Nodup := by
    have hwords := Text.nodup_words_of_isCamelCase (List.forall_mem_map.2 hcamel) hnames
    rwa [List.map_map] at hwords
  have hpaths := (nodup_paths_iff a output).2 hwords
  rw [files_run hrequest hcompile hcode, (lastWritten_eq_self_iff _).2 hpaths]

/-- Every generated class is found in a file of its own if and only if no two of them have the same
words in their names. -/
theorem run_keeps_sources_iff (hrequest : Request.ofArguments arguments = .compile a declarations)
    (hcompile : compile openSchema configHome files a declarations = .ok output)
    (hcode : (run openSchema configHome files arguments).code ≠ failureCode) :
    ((run openSchema configHome files arguments).files.filter
        (·.1 ∈ (generatedFiles a output).map Prod.fst)).Perm (generatedFiles a output) ↔
      (output.daos.map fun dao => Text.words dao.implName).Nodup := by
  have hleft : (run openSchema configHome files arguments).files.filter
      (·.1 ∈ (generatedFiles a output).map Prod.fst) = lastWritten (generatedFiles a output) := by
    have hothers : (files.filter (·.1 ∉ (generatedFiles a output).map Prod.fst)).filter
        (·.1 ∈ (generatedFiles a output).map Prod.fst) = [] := by
      rw [List.filter_filter]
      exact List.filter_eq_nil_iff.2 fun file _ => by simp
    have hpaths := (lastWritten_sublist (generatedFiles a output)).subset
    rw [files_run hrequest hcompile hcode, List.filter_append, hothers, List.nil_append]
    exact List.filter_eq_self.2 fun file hfile =>
      decide_eq_true (List.mem_map_of_mem (hpaths hfile))
  rw [hleft, lastWritten_perm_iff, nodup_paths_iff]

end Runs

/-- Declarations of two data access objects whose names have the same words. -/
def sameWords : Files :=
  [("dao.toml", "[[daos]]\nname = \"UserDao\"\n\n[[daos]]\nname = \"userDao\"\n")]

/-- Of classes for `UserDao` and `userDao` one is lost, and the run ends as if nothing had happened. -/
theorem run_keeps_sources_sameWords :
    let a : Arguments := { declarations := some "dao.toml" }
    let openSchema : Declarations → Except String Verifier := fun _ => .error "no database"
    let outcome := run openSchema "config" sameWords ["dao.toml"]
    ∃ output, compile openSchema "config" sameWords a "dao.toml" = .ok output ∧ outcome.code = 0 ∧
      output.daos.map GeneratedDao.implName = ["UserDaoImpl", "userDaoImpl"] ∧
      ¬(outcome.files.filter (·.1 ∈ (generatedFiles a output).map Prod.fst)).Perm
        (generatedFiles a output) := by
  intro a openSchema outcome
  have hround : (compile openSchema "config" sameWords a "dao.toml").toOption.map
      (·.daos.map GeneratedDao.implName) = some ["UserDaoImpl", "userDaoImpl"] := by decide +kernel
  have hcode : outcome.code = 0 := by decide +kernel
  cases hcompile : compile openSchema "config" sameWords a "dao.toml" with
  | error e => simp [hcompile, Except.toOption] at hround
  | ok output =>
    rw [hcompile] at hround
    have hnames : output.daos.map GeneratedDao.implName = ["UserDaoImpl", "userDaoImpl"] :=
      Option.some.inj hround
    refine ⟨output, rfl, hcode, hnames, fun hperm => ?_⟩
    have hwords := (run_keeps_sources_iff (by decide +kernel) hcompile
      (hcode ▸ by decide)).1 hperm
    have hmap : (output.daos.map fun dao => Text.words dao.implName) =
        ["UserDaoImpl", "userDaoImpl"].map Text.words := by
      rw [← hnames, List.map_map]
      rfl
    rw [hmap] at hwords
    exact absurd hwords (by decide +kernel)

end DataAccess.CommandLine
