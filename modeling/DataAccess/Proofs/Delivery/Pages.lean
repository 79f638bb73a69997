import DataAccess.Proofs.Delivery.ClaimedTypes
import DataAccess.Proofs.Rows.ResultTypes

/-!
The reading of pages. A paging type pages through its last argument, and a page is read as a vector of
it. So a page is a list, and is read row by row, unless it is a vector of `u8`: that is read as bytes
from the first row alone.
-/

set_option autoImplicit false

namespace DataAccess

namespace TypeExpr

theorem args_eq_pair_of_length {t : TypeExpr} (h : t.args.length = 2) :
    ∃ a b, t = .mk t.name [a, b] := by
  obtain ⟨a, b, hab⟩ := List.length_eq_two.1 h
  cases t with
  | mk name args =>
    obtain rfl : args = [a, b] := hab
    exact ⟨a, b, rfl⟩

end TypeExpr

namespace Rows

open Schema

/-- A vector is read as a list of its elements, or else as bytes. -/
theorem formOf?_vecOf {d : Declarations} {content row : TypeExpr} {form : ResultForm}
    (h : Result.formOf? d (.vecOf content) = some (form, row)) :
    (content.name ≠ "u8" ∧ form = .list ∧ row = content) ∨
    (content.name = "u8" ∧ form = .single none ∧ row = .vecOf content) := by
  obtain ⟨rfl, heq, hother⟩ | ⟨-, name, heq, hname⟩ | ⟨-, heq, -⟩ | ⟨hform, rfl, -, hbytes, -⟩ :=
    formOf?_cases h
  · cases heq
    exact .inl ⟨hother, rfl, rfl⟩
  · cases heq
    exact absurd hname (by decide)
  · exact absurd heq (TypeExpr.vecOf_ne_optionOf _ _)
  · refine .inr ⟨?_, hform, rfl⟩
    by_contra hother
    exact absurd (TypeExpr.isCollection_iff.2 ⟨content, rfl, hother⟩) (ne_true_of_eq_false hbytes)

end Rows

namespace Delivery

open Code Rows

/-- What a type that a provider claims pages through. -/
inductive PagesOf (content : TypeExpr) : ReadProvider → TypeExpr → Prop
  | positional {name : String}
    (path : (TypeExpr.mk name [content]).matchesPath RuntimeNames.positionalDataSource = true) :
    PagesOf content .dataSource (.mk name [content])
  | dataSource {name : String} {key : TypeExpr}
    (path : (TypeExpr.mk name [key, content]).matchesPath RuntimeNames.dataSource = true) :
    PagesOf content .dataSource (.mk name [key, content])
  | factory {name : String} {key : TypeExpr}
    (path : (TypeExpr.mk name [key, content]).matchesPath RuntimeNames.dataSourceFactory = true) :
    PagesOf content .dataSourceFactory (.mk name [key, content])
  | pagingSource {name : String} {key : TypeExpr}
    (path : (TypeExpr.mk name [key, content]).matchesPath RuntimeNames.pagingSource = true) :
    PagesOf content .pagingSource (.mk name [key, content])

/-- The providers of paging types. -/
def pagingProviders : List ReadProvider := [.dataSource, .dataSourceFactory, .pagingSource]

variable {p : ReadProvider} {t content : TypeExpr}

theorem exists_pagesOf (hp : p ∈ pagingProviders) (h : p.ClaimsByPath t) :
    ∃ content, PagesOf content p t := by
  obtain ⟨path, arity, hmem, harity, hpath⟩ := h
  have hpair : arity = 2 → ∃ name key content, t = .mk name [key, content] := by
    rintro rfl
    obtain ⟨key, content, ht⟩ := TypeExpr.args_eq_pair_of_length harity
    exact ⟨_, key, content, ht⟩
  simp only [pagingProviders, List.mem_cons, List.not_mem_nil, or_false] at hp
  obtain rfl | rfl | rfl := hp
  · obtain heq | hmem := List.mem_cons.1 hmem
    · cases heq
      obtain ⟨content, ht⟩ := TypeExpr.args_eq_singleton_of_length harity
      rw [ht] at hpath ⊢
      exact ⟨content, .positional hpath⟩
    · cases List.mem_singleton.1 hmem
      obtain ⟨name, key, content, rfl⟩ := hpair rfl
      exact ⟨content, .dataSource hpath⟩
  · cases List.mem_singleton.1 hmem
    obtain ⟨name, key, content, rfl⟩ := hpair rfl
    exact ⟨content, .factory hpath⟩
  · cases List.mem_singleton.1 hmem
    obtain ⟨name, key, content, rfl⟩ := hpair rfl
    exact ⟨content, .pagingSource hpath⟩

/-- A page is read as a vector of what the type pages through. -/
theorem PagesOf.plan_eq (h : PagesOf content p t) :
    ∃ kind, p.plan t = .again (.paging kind) (fun _ => rfl) (some (.vecOf content)) := by
  cases h <;> exact ⟨_, rfl⟩

theorem PagesOf.resolve_of_provide (h : PagesOf content p t) {setting : Setting}
    {query : Sql.Query} {l : Logger} {r : Result}
    (hr : ((p.provide setting t query).run l).1.result = some r) :
    (Result.resolve setting.store (.vecOf content) query).Gives r := by
  obtain ⟨kind, hplan⟩ := h.plan_eq
  rw [(p.steady_provide ..).determined.run_fst, p.answer_provide, hplan] at hr
  exact ⟨{}, hr⟩

/-- A paging type that its provider claims pages through its last argument. When there is a reading of
the pages, it is a list with rows of that type exactly when the type is not named `u8`; otherwise a
page is read as bytes, from its first row, and fails without one. -/
theorem page_reading_iff {setting : Setting} {query : Sql.Query} {l l' : Logger} {r : Result}
    (hp : p ∈ pagingProviders) (hclaims : ((p.claims setting.environment t).run l).1 = true)
    (hr : ((p.provide setting t query).run l').1.result = some r) :
    ∃ content, PagesOf content p t ∧
      (r.form = .list ∧ r.row.type = content ↔ content.name ≠ "u8") ∧
      (content.name = "u8" → r.form = .single none ∧ r.row.type = .vecOf content) := by
  have hspecific : ¬p.IsGeneral := by
    rintro (rfl | ⟨c, rfl⟩) <;> simp [pagingProviders] at hp
  rw [(p.findsOnly_claims _ t).steady.determined.run_fst] at hclaims
  obtain ⟨content, hpages⟩ := exists_pagesOf hp (p.claimsByPath_of_claims hclaims hspecific)
  obtain ⟨rowType, hform, hrow⟩ := exists_form_of_gives (hpages.resolve_of_provide hr)
  obtain rfl := Row.type_of_gives hrow
  refine ⟨content, hpages, ?_⟩
  obtain ⟨hother, hlist, hrows⟩ | ⟨hbytes, hsingle, hrows⟩ := formOf?_vecOf hform
  · exact ⟨⟨fun _ => hother, fun _ => ⟨hlist, hrows⟩⟩, fun hbytes => absurd hbytes hother⟩
  · refine ⟨⟨fun h => ?_, fun hother => absurd hbytes hother⟩, fun _ => ⟨hsingle, hrows⟩⟩
    exact absurd (h.1.symm.trans hsingle) nofun

/-- Codes are small numbers that are read from integers. -/
def pageSetting : Setting where
  store := {
    decls := { entities := [{ record := {
      name := "User"
      fields := [{ name := "id", type := .simple "i64" }] } }] }
    maxHops := 2
    custom := [⟨"Codes", .static, "one", .simple "i64", .simple "u8"⟩] }

/-- Pages of users are lists, and pages of codes are bytes although every code could be read. -/
theorem page_reading_codes :
    let paged (content : TypeExpr) : TypeExpr := .mk "PagingSource" [.simple "i32", content]
    let reading (content : TypeExpr) : Option Result :=
      ((ReadProvider.pagingSource.provide pageSetting (paged content)
        { original := "SELECT code FROM user" }).run {}).1.result
    (∃ r, reading (.simple "User") = some r ∧ r.form = .list ∧ r.row.type = .simple "User") ∧
    (pageSetting.store.reader? (.simple "u8") none).isSome ∧
    ∃ r, reading (.simple "u8") = some r ∧ r.form = .single none ∧
      r.row.type = .vecOf (.simple "u8") := by
  intro paged reading
  have hpaging : ReadProvider.pagingSource ∈ pagingProviders := by decide
  have hcontent : ∀ {content content'}, PagesOf content .pagingSource (paged content') →
      content = content' := by
    rintro content content' ⟨⟩
    rfl
  refine ⟨?_, by decide +kernel, ?_⟩
  · have hclaims : ((ReadProvider.pagingSource.claims pageSetting.environment
        (paged (.simple "User"))).run {}).1 = true := by decide +kernel
    have hfound : (reading (.simple "User")).isSome = true := by decide +kernel
    obtain ⟨r, hr⟩ := Option.isSome_iff_exists.1 hfound
    obtain ⟨content, hpages, hiff, -⟩ := page_reading_iff hpaging hclaims hr
    obtain rfl := hcontent hpages
    exact ⟨r, hr, hiff.2 (by decide)⟩
  · have hclaims : ((ReadProvider.pagingSource.claims pageSetting.environment
        (paged (.simple "u8"))).run {}).1 = true := by decide +kernel
    have hfound : (reading (.simple "u8")).isSome = true := by decide +kernel
    obtain ⟨r, hr⟩ := Option.isSome_iff_exists.1 hfound
    obtain ⟨content, hpages, -, hbytes⟩ := page_reading_iff hpaging hclaims hr
    obtain rfl := hcontent hpages
    exact ⟨r, hr, hbytes rfl⟩

end Delivery

end DataAccess
