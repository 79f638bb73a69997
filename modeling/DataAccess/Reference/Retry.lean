/-!
Attempts that may have to wait for one another. Everything that fails in one pass is tried again in
the next, until a pass succeeds with all or with none of its attempts.
-/

set_option autoImplicit false

namespace DataAccess.Reference.Retry

variable {σ α ε : Type} (attempt : α → σ → σ × Option ε)

/-- Attempts everything once, in order; answers with what failed. -/
def tryEach : List α → σ → σ × List (α × ε)
  | [], s => (s, [])
  | a :: rest, s =>
    let (s, error) := attempt a s
    let (s, failed) := tryEach rest s
    match error with
    | some e => (s, (a, e) :: failed)
    | none => (s, failed)

/-- Attempts everything until nothing more succeeds; the answer is the first failure left. -/
def untilSettled (pending : List α) (s : σ) : σ × Option (α × ε) :=
  match tryEach attempt pending s with
  | (s, []) => (s, none)
  | (s, (a, e) :: failed) =>
    if failed.length + 1 < pending.length then untilSettled (a :: failed.map Prod.fst) s
    else (s, some (a, e))
termination_by pending.length

end DataAccess.Reference.Retry
