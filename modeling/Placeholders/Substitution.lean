import Placeholders.Table
import Placeholders.Grammar

/-! Substitutions: literals with the texts that replace them. All replacements happen in one sweep
from left to right, so a replacement is never read again within the sweep; where several literals
start at one place the longest is taken. -/

namespace Placeholders

/-- Replacements by literal. The last one recorded for a literal counts. -/
abbrev Substitution := Table Text

namespace Substitution

def effective (s : Substitution) : List (Text × Text) :=
  s.entries.filter fun (literal, replacement) => literal ≠ replacement

/-- Whether a binding applies at the start of a text. Literals are not empty, as no search for an
empty one would come to an end; a resolver that records such a literal is not considered here. -/
def applies (binding : Text × Text) (text : Text) : Bool :=
  !binding.1.isEmpty && binding.1.isPrefixOf text

def longestAt : List (Text × Text) → Text → Option (Text × Text)
  | [], _ => none
  | binding :: bindings, text =>
    match longestAt bindings text with
    | none => if applies binding text then some binding else none
    | some best =>
      if applies binding text && best.1.length < binding.1.length then some binding else some best

/-- Replaces from left to right; the first `skip` characters belong to a literal already
replaced. -/
def sweepFrom (bindings : List (Text × Text)) : Nat → Text → Text
  | _, [] => []
  | skip + 1, _ :: text => sweepFrom bindings skip text
  | 0, c :: text =>
    match longestAt bindings (c :: text) with
    | some (literal, replacement) => replacement ++ sweepFrom bindings (literal.length - 1) text
    | none => c :: sweepFrom bindings 0 text

def sweep (bindings : List (Text × Text)) (text : Text) : Text := sweepFrom bindings 0 text

structure Applied where
  result : Text
  changed : Bool
  deriving DecidableEq, Repr

/-- Applies a substitution. A text counts as changed as soon as some entry is effective, whether
or not its literal occurs. -/
def apply (s : Substitution) (text : Text) : Applied :=
  match s.effective with
  | [] => ⟨text, false⟩
  | bindings => ⟨sweep bindings text, true⟩

def unescape (text : Text) : Text := sweep [(Grammar.dollarLiteral, ['$'])] text

theorem sweepFrom_skip (bindings : List (Text × Text)) (skip : Nat) (text : Text) :
    sweepFrom bindings skip text = sweep bindings (text.drop skip) := by
  induction text generalizing skip with
  | nil => cases skip <;> simp [sweepFrom, sweep]
  | cons c text ih =>
    cases skip with
    | zero => rfl
    | succ skip => simpa [sweepFrom] using ih skip

@[simp] theorem sweep_nil (bindings : List (Text × Text)) : sweep bindings [] = [] := rfl

theorem applies_iff {binding : Text × Text} {text : Text} :
    applies binding text ↔ binding.1 ≠ [] ∧ binding.1 <+: text := by
  simp [applies, List.isPrefixOf_iff_prefix]

/-- The chosen binding is one of the bindings and applies. -/
theorem of_longestAt_eq_some {bindings : List (Text × Text)} {text : Text} {b : Text × Text}
    (h : longestAt bindings text = some b) : b ∈ bindings ∧ applies b text := by
  induction bindings generalizing b with
  | nil => simp [longestAt] at h
  | cons head bindings ih =>
    simp only [longestAt] at h
    split at h
    · split at h
      · next happ => cases h; exact ⟨List.mem_cons_self, happ⟩
      · simp at h
    · next best hbest =>
      split at h
      · next happ =>
        cases h
        exact ⟨List.mem_cons_self, (Bool.and_eq_true _ _ ▸ happ).1⟩
      · cases h
        exact ⟨List.mem_cons_of_mem _ (ih hbest).1, (ih hbest).2⟩

theorem longestAt_eq_none_iff {bindings : List (Text × Text)} {text : Text} :
    longestAt bindings text = none ↔ ∀ b ∈ bindings, ¬ applies b text := by
  induction bindings with
  | nil => simp [longestAt]
  | cons head bindings ih =>
    simp only [longestAt]
    split
    · next hnone =>
      have hrest := ih.mp hnone
      simp only [ite_eq_right_iff, reduceCtorEq, imp_false, List.mem_cons, forall_eq_or_imp]
      exact ⟨fun h => ⟨h, hrest⟩, fun h => h.1⟩
    · next best hbest =>
      have := of_longestAt_eq_some hbest
      constructor
      · intro h; split at h <;> simp at h
      · intro h
        exact absurd this.2 (h best (List.mem_cons_of_mem _ this.1))

/-- No applying binding has a longer literal than the chosen one. -/
theorem length_le_of_longestAt {bindings : List (Text × Text)} {text : Text} {b : Text × Text}
    (h : longestAt bindings text = some b) {other : Text × Text} (ho : other ∈ bindings)
    (happ : applies other text) : other.1.length ≤ b.1.length := by
  induction bindings generalizing b with
  | nil => simp at ho
  | cons head bindings ih =>
    simp only [longestAt] at h
    rcases List.mem_cons.mp ho with rfl | ho
    · split at h
      · split at h
        · cases h; exact Nat.le_refl _
        · next hno => exact absurd happ hno
      · split at h
        · cases h; exact Nat.le_refl _
        · next hlt =>
          cases h
          simp [happ] at hlt
          omega
    · split at h
      · next hnone => exact absurd happ (longestAt_eq_none_iff.mp hnone other ho)
      · next best hbest =>
        have hle := ih hbest ho
        split at h
        · next hlt =>
          cases h
          have : best.1.length < head.1.length :=
            of_decide_eq_true (Bool.and_eq_true_iff.mp hlt).2
          omega
        · cases h; exact hle

theorem sweep_of_longestAt_eq_none {bindings : List (Text × Text)} {c : Char} {text : Text}
    (h : longestAt bindings (c :: text) = none) :
    sweep bindings (c :: text) = c :: sweep bindings text := by
  simp [sweep, sweepFrom, h]

/-- The chosen literal is replaced and the sweep goes on behind it. -/
theorem sweep_of_longestAt_eq_some {bindings : List (Text × Text)} {text : Text}
    {literal replacement rest : Text}
    (h : longestAt bindings (literal ++ rest) = some (literal, replacement))
    (ht : literal ++ rest = text) :
    sweep bindings text = replacement ++ sweep bindings rest := by
  subst ht
  have hne : literal ≠ [] := (applies_iff.mp (of_longestAt_eq_some h).2).1
  cases literal with
  | nil => exact absurd rfl hne
  | cons c literal =>
    have h' : longestAt bindings (c :: (literal ++ rest)) = some (c :: literal, replacement) := h
    simp [sweep, sweepFrom, h']
    simpa [sweep] using sweepFrom_skip bindings literal.length (literal ++ rest)

end Substitution
end Placeholders
