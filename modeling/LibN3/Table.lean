import Mathlib.Logic.Function.Basic
import Mathlib.Data.List.Basic

/-! A table written to by a list of events, each of which names the key it writes. What
a key holds in the end is decided by the events that name it. -/
namespace Table

universe u v w
variable {E : Type u} {K : Type v} {V : Type w} [DecidableEq K]
variable (key : E → K) (write : E → V → V)

def put (t : K → V) (e : E) : K → V := Function.update t (key e) (write e (t (key e)))

def putAll (t : K → V) (es : List E) : K → V := es.foldl (put key write) t

def writesTo (k : K) (es : List E) : List E := es.filter fun e => key e = k

theorem putAll_apply (t : K → V) (es : List E) (k : K) :
    putAll key write t es k = (writesTo key k es).foldl (fun v e => write e v) (t k) := by
  induction es generalizing t with
  | nil => rfl
  | cons e es ih =>
    have rest := ih (put key write t e)
    by_cases here : key e = k
    · subst here
      simpa [putAll, put, writesTo] using rest
    · have there : k ≠ key e := fun eq => here eq.symm
      simpa [putAll, put, writesTo, here, there] using rest

theorem writesTo_eq_nil {k : K} {es : List E} (none_names : ∀ e ∈ es, key e ≠ k) :
    writesTo key k es = [] := by
  simpa [writesTo] using none_names

theorem writesTo_eq_self {k : K} {es : List E} (all_name : ∀ e ∈ es, key e = k) :
    writesTo key k es = es := by
  simpa [writesTo] using all_name

variable {key write}

theorem putAll_untouched {t : K → V} {es : List E} {k : K} (none_names : ∀ e ∈ es, key e ≠ k) :
    putAll key write t es k = t k := by
  rw [putAll_apply, writesTo_eq_nil key none_names]
  rfl

/-- Where a write undoes the one before it, the last one decides. -/
theorem putAll_last (absorbs : ∀ e e' v, write e (write e' v) = write e v) {t : K → V}
    {es : List E} {k : K} (all_name : ∀ e ∈ es, key e = k) {e : E} (last : es.getLast? = some e) :
    putAll key write t es k = write e (t k) := by
  rw [putAll_apply, writesTo_eq_self key all_name]
  obtain ⟨before, rfl⟩ := List.getLast?_eq_some_iff.mp last
  clear last all_name
  rw [List.foldl_append, List.foldl_cons, List.foldl_nil]
  generalize t k = v
  induction before generalizing v with
  | nil => rfl
  | cons e' before ih => exact (ih (write e' v)).trans (absorbs e e' v)

/-- So a key is left as it was, or as the last event that names it makes it. -/
theorem putAll_getLast (absorbs : ∀ e e' v, write e (write e' v) = write e v) (t : K → V)
    (es : List E) (k : K) :
    putAll key write t es k = ((writesTo key k es).getLast?.map (write · (t k))).getD (t k) := by
  rw [putAll_apply]
  cases last : (writesTo key k es).getLast? with
  | none =>
    rw [List.getLast?_eq_none_iff.mp last]
    rfl
  | some e =>
    have all_name : ∀ e ∈ writesTo key k es, key e = k := by
      intro e member
      simpa [writesTo] using (List.mem_filter.mp member).2
    have decided := putAll_last absorbs (t := t) all_name last
    rw [putAll_apply, writesTo_eq_self key all_name] at decided
    exact decided

theorem putAll_append (t : K → V) (es es' : List E) :
    putAll key write t (es ++ es') = putAll key write (putAll key write t es) es' :=
  List.foldl_append

end Table
