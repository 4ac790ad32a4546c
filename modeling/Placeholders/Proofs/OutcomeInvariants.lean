import Placeholders.Proofs.LeftmostLongest
import Placeholders.Proofs.PassSequence

/-! How the parts of an outcome depend on each other, whatever the resolvers of the engine do: they
may flag a token, fail or record a replacement in any pass. -/

namespace Placeholders
namespace Engine
variable {σ : Type} {engine : Engine σ} {context : Context} {input : Text} {state : σ}

structure Coherent (engine : Engine σ) (context : Context) (input : Text) (state : σ)
    (outcome : Outcome) : Prop where
  faulted_iff : outcome.status = .faulted ↔ outcome.passes = 0
  passes_mem : outcome.status ≠ .faulted → 1 ≤ outcome.passes ∧ outcome.passes ≤ maxPasses
  capped : outcome.status = .maxRecursionReached →
    outcome.passes = maxPasses ∧ context.recursive = true
  passes_le_one : context.recursive = false → outcome.passes ≤ 1
  circular_iff : outcome.circular.isSome = true ↔ outcome.status = .circularReference
  /-- The string is the one of the caller, also where a later pass flagged the token. -/
  circular_input : ∀ c, outcome.circular = some c → c.input = input
  /-- Whether an expansion changes anything is decided in its first pass. -/
  changed_eq : outcome.status ≠ .faulted → ∃ first after,
    engine.pass context input state = (.ok first, after) ∧ outcome.changed = first.changed
  unchanged : outcome.status ≠ .faulted → outcome.changed = false →
    outcome.passes = 1 ∧ Substitution.Unescapes input outcome.result
  changed_of_two_le : 2 ≤ outcome.passes → outcome.changed = true
  two_le_of_changed : context.recursive = true → outcome.status = .complete →
    outcome.changed = true → 2 ≤ outcome.passes

/-- The replacements of a pass without effect leave its string alone. -/
theorem result_of_unchanged {text : Text} {before after : σ} {pass : FinishedPass}
    (hp : engine.pass context text before = (.ok pass, after)) (hch : pass.changed = false) :
    pass.result = text := by
  rw [Engine.pass] at hp
  cases hf : (resolveAll context engine.resolvers { input := text } before).fault with
  | some fault =>
    simp only [hf] at hp
    cases hp
  | none =>
    simp only [hf] at hp
    obtain ⟨rfl, rfl⟩ := hp
    exact Substitution.result_apply_of_unchanged hch

/-- Behind a string that is reached lies a first pass; if others followed it, it asked for them. -/
theorem Reaches.exists_first {n : Nat} {text : Text} {before after : σ} {pass : FinishedPass}
    (hr : engine.Reaches context input state n text before)
    (hp : engine.pass context text before = (.ok pass, after)) :
    ∃ first between, engine.pass context input state = (.ok first, between) ∧
      (n = 0 → text = input ∧ first = pass) ∧ (0 < n → Continues context 0 first) := by
  induction hr generalizing pass after with
  | start => exact ⟨pass, after, hp, fun _ => ⟨rfl, rfl⟩, fun h => absurd h (Nat.lt_irrefl 0)⟩
  | @next n text before between earlier hr he hc ih =>
    obtain ⟨first, second, hf, hzero, hpos⟩ := ih he
    refine ⟨first, second, hf, fun h => absurd h n.succ_ne_zero, fun _ => ?_⟩
    rcases n.eq_zero_or_pos with rfl | hn
    · obtain ⟨_, rfl⟩ := hzero rfl
      exact hc
    · exact hpos hn

@[simp] theorem passes_lastOutcome (input : Text) (pass : FinishedPass) (n : Nat) :
    (lastOutcome input pass n).passes = n + 1 := rfl

theorem coherent_faulted (engine : Engine σ) (context : Context) (input : Text) (state : σ) :
    engine.Coherent context input state (.faulted input) where
  faulted_iff := ⟨fun _ => rfl, fun _ => rfl⟩
  passes_mem h := absurd rfl h
  capped := nofun
  passes_le_one _ := Nat.zero_le 1
  circular_iff := ⟨nofun, nofun⟩
  circular_input := nofun
  changed_eq h := absurd rfl h
  unchanged h := absurd rfl h
  changed_of_two_le := nofun
  two_le_of_changed _ := nofun

private theorem changed_lastOutcome {n : Nat} {first pass : FinishedPass}
    (hzero : n = 0 → first = pass) (hpos : 0 < n → Continues context 0 first) :
    (lastOutcome input pass n).changed = first.changed := by
  rcases n.eq_zero_or_pos with rfl | hn
  · rw [hzero rfl]
    rfl
  · rw [(hpos hn).changed]
    simp [lastOutcome, hn]

/-- All of it is read off the first and the last pass and the number of passes. -/
theorem coherent_lastOutcome {n : Nat} {text : Text} {before after : σ} {pass : FinishedPass}
    (hr : engine.Reaches context input state n text before)
    (hp : engine.pass context text before = (.ok pass, after)) (hc : ¬ Continues context n pass) :
    engine.Coherent context input state (lastOutcome input pass n) := by
  obtain ⟨first, between, hf, hzero, hpos⟩ := hr.exists_first hp
  have hchanged : (lastOutcome input pass n).changed = first.changed :=
    changed_lastOutcome (fun h => (hzero h).2) hpos
  have hfirst : (lastOutcome input pass n).changed = false → n = 0 := by
    intro hch
    by_contra hn
    have hc := hpos (Nat.pos_of_ne_zero hn)
    exact not_continues_of_unchanged (hchanged ▸ hch) hc
  constructor
  case faulted_iff =>
    exact ⟨fun h => absurd h (status_lastOutcome_ne_faulted input pass n),
      fun h => absurd h n.succ_ne_zero⟩
  case passes_mem =>
    intro _
    exact ⟨Nat.le_add_left 1 n, hr.lt⟩
  case capped =>
    intro h
    obtain ⟨_, hn⟩ := status_lastOutcome_eq_maxRecursionReached_iff.mp h
    have hpositive : 0 < n := by
      rw [maxPasses] at hn
      omega
    exact ⟨hn, (hpos hpositive).recursive⟩
  case passes_le_one =>
    intro hrec
    by_contra hn
    rw [passes_lastOutcome] at hn
    have hagain := hpos (by omega)
    exact absurd (hrec.symm.trans hagain.recursive) (by decide)
  case circular_iff =>
    rw [status_lastOutcome_eq_circularReference_iff, ← Option.isSome_iff_ne_none, lastOutcome,
      Option.isSome_map]
  case circular_input =>
    intro c h
    obtain ⟨token, _, rfl⟩ := Option.map_eq_some_iff.mp h
    rfl
  case changed_eq =>
    intro _
    exact ⟨first, between, hf, hchanged⟩
  case unchanged =>
    intro _ hch
    obtain rfl := hfirst hch
    obtain ⟨rfl, rfl⟩ := hzero rfl
    refine ⟨rfl, ?_⟩
    rw [Substitution.unescapes_iff, lastOutcome, result_of_unchanged hf (hchanged ▸ hch)]
  case changed_of_two_le =>
    intro h
    by_contra hch
    obtain rfl := hfirst (Bool.not_eq_true _ ▸ hch)
    exact absurd h (Nat.not_succ_le_self 1)
  case two_le_of_changed =>
    intro hrec hs hch
    by_contra hn
    rw [passes_lastOutcome] at hn
    obtain rfl : n = 0 := by omega
    obtain ⟨_, rfl⟩ := hzero rfl
    obtain ⟨hcirc, _⟩ := status_lastOutcome_eq_complete_iff.mp hs
    exact hc ⟨hcirc, by decide, hrec, hchanged ▸ hch⟩

/-- Every outcome of an expansion is coherent, whichever resolvers the engine has. -/
theorem coherent_expand (engine : Engine σ) (context : Context) (input : Text) (state : σ) :
    engine.Coherent context input state (engine.expand context input state).1.outcome := by
  obtain ⟨n, text, before, hr, hlast⟩ := exists_last engine context input state
  rcases hp : engine.pass context text before with ⟨fault | pass, after⟩
  · rw [outcome_expand_of_fault hr hp]
    exact coherent_faulted engine context input state
  · have hc := hlast pass after hp
    obtain ⟨_, _, _, he⟩ := expand_of_not_continues hr hp hc
    rw [he]
    exact coherent_lastOutcome hr hp hc

end Engine
end Placeholders
