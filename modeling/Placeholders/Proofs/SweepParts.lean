import Placeholders.Substitution

/-! A sweep taken apart. It reads a text as characters that stay and literals that are replaced, one
behind the other, and writes the replacements in their places. -/

namespace Placeholders
namespace Substitution

inductive Part where
  | kept (c : Char)
  | replaced (binding : Text × Text)
  deriving DecidableEq, Repr

def Part.after : Part → Text
  | kept c => [c]
  | replaced binding => binding.2

/-- The parts that a sweep reads; the first `skip` characters belong to a literal read before. -/
def partsFrom (bindings : List (Text × Text)) : Nat → Text → List Part
  | _, [] => []
  | skip + 1, _ :: text => partsFrom bindings skip text
  | 0, c :: text =>
    match longestAt bindings (c :: text) with
    | some binding => .replaced binding :: partsFrom bindings (binding.1.length - 1) text
    | none => .kept c :: partsFrom bindings 0 text

def parts (bindings : List (Text × Text)) (text : Text) : List Part := partsFrom bindings 0 text

variable {bindings : List (Text × Text)}

/-- What a sweep writes. -/
theorem flatMap_after_partsFrom (skip : Nat) (text : Text) :
    (partsFrom bindings skip text).flatMap Part.after = sweepFrom bindings skip text := by
  induction text generalizing skip with
  | nil => cases skip <;> rfl
  | cons c text ih =>
    cases skip with
    | succ skip => exact ih skip
    | zero =>
      rw [partsFrom, sweepFrom]
      cases longestAt bindings (c :: text) with
      | some binding => rw [List.flatMap_cons, ih]; rfl
      | none => rw [List.flatMap_cons, ih]; rfl

theorem flatMap_after_parts (bindings : List (Text × Text)) (text : Text) :
    (parts bindings text).flatMap Part.after = sweep bindings text :=
  flatMap_after_partsFrom 0 text

/-- Only bindings are used, and only where they apply. -/
theorem of_replaced_mem_partsFrom {skip : Nat} {text : Text} {binding : Text × Text}
    (h : .replaced binding ∈ partsFrom bindings skip text) :
    binding ∈ bindings ∧ binding.1 ≠ [] ∧ binding.1 <:+: text := by
  induction text generalizing skip with
  | nil => cases skip <;> cases h
  | cons c text ih =>
    have later {skip : Nat} (h : .replaced binding ∈ partsFrom bindings skip text) :
        binding ∈ bindings ∧ binding.1 ≠ [] ∧ binding.1 <:+: c :: text := by
      obtain ⟨hm, hne, hi⟩ := ih h
      exact ⟨hm, hne, hi.trans (List.suffix_cons c text).isInfix⟩
    cases skip with
    | succ skip => exact later h
    | zero =>
      rw [partsFrom] at h
      cases hl : longestAt bindings (c :: text) with
      | none =>
        rw [hl] at h
        rcases List.mem_cons.mp h with h | h
        · cases h
        · exact later h
      | some best =>
        rw [hl] at h
        rcases List.mem_cons.mp h with h | h
        · obtain rfl := Part.replaced.inj h
          obtain ⟨hm, ha⟩ := of_longestAt_eq_some hl
          obtain ⟨hne, hp⟩ := applies_iff.mp ha
          exact ⟨hm, hne, hp.isInfix⟩
        · exact later h

/-- A sweep replaces something as soon as some literal occurs, even if others hide that one. -/
theorem exists_replaced_iff {text : Text} :
    (∃ binding, .replaced binding ∈ parts bindings text) ↔
      ∃ binding ∈ bindings, binding.1 ≠ [] ∧ binding.1 <:+: text := by
  constructor
  · rintro ⟨binding, h⟩
    obtain ⟨hm, hoccurs⟩ := of_replaced_mem_partsFrom h
    exact ⟨binding, hm, hoccurs⟩
  · rintro ⟨binding, hm, hne, hi⟩
    induction text with
    | nil => exact absurd (List.infix_nil.mp hi) hne
    | cons c text ih =>
      rw [parts, partsFrom]
      cases hl : longestAt bindings (c :: text) with
      | some best => exact ⟨best, List.mem_cons_self⟩
      | none =>
        rcases List.infix_cons_iff.mp hi with hp | hi
        · exact absurd (applies_iff.mpr ⟨hne, hp⟩) (longestAt_eq_none_iff.mp hl binding hm)
        · obtain ⟨best, hb⟩ := ih hi
          exact ⟨best, List.mem_cons_of_mem _ hb⟩

end Substitution
end Placeholders
