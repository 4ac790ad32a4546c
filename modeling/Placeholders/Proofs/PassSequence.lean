import Mathlib.Data.Nat.Basic
import Mathlib.Tactic.Push
import Placeholders.Engine.Expand

/-! The passes of a run as steps. A string is reached when a pass of the run starts on it; each
pass of the run is a step from a reached string, and the run ends at the one string from which no
further step leads. -/

namespace Placeholders

/-- What holds at each index of a list with one more element behind it. -/
theorem forall_getElem?_concat {α : Type} {p : Nat → α → Prop} {xs : List α} {last : α} :
    (∀ i x, (xs ++ [last])[i]? = some x → p i x) ↔
      (∀ i x, xs[i]? = some x → p i x) ∧ p xs.length last := by
  constructor
  · intro h
    refine ⟨fun i x hx => h i x ?_, h xs.length last List.getElem?_concat_length⟩
    rwa [List.getElem?_append_left (List.getElem?_eq_some_iff.mp hx).1]
  · rintro ⟨h, hlast⟩ i x hx
    rcases lt_trichotomy i xs.length with hlt | rfl | hgt
    · rw [List.getElem?_append_left hlt] at hx
      exact h i x hx
    · rw [List.getElem?_concat_length] at hx
      exact Option.some.inj hx ▸ hlast
    · rw [List.getElem?_eq_none (by simp; omega)] at hx
      cases hx

namespace Engine
variable {σ : Type} (engine : Engine σ) (context : Context) (input : Text) (state : σ)

/-- A further pass follows: the context asks for it, and the last one changed something, flagged
nothing and was not the last that is allowed. -/
def Continues (n : Nat) (pass : FinishedPass) : Prop :=
  pass.circular = none ∧ n + 1 < maxPasses ∧ context.recursive = true ∧ pass.changed = true

/-- Pass number `n` of a run starts on a string in a state of the world. -/
inductive Reaches : Nat → Text → σ → Prop where
  | start : Reaches 0 input state
  | next {n : Nat} {text : Text} {before after : σ} {pass : FinishedPass} :
      Reaches n text before → engine.pass context text before = (.ok pass, after) →
      Continues context n pass → Reaches (n + 1) pass.result after

def endingOf (pass : FinishedPass) (n : Nat) : Ending :=
  match pass.circular with
  | some token => .circular token
  | none => if n + 1 = maxPasses then .capped else .complete

variable {engine context input state}

theorem Continues.recursive {n : Nat} {pass : FinishedPass} (h : Continues context n pass) :
    context.recursive = true := h.2.2.1

theorem Continues.changed {n : Nat} {pass : FinishedPass} (h : Continues context n pass) :
    pass.changed = true := h.2.2.2

theorem not_continues_of_unchanged {n : Nat} {pass : FinishedPass} (h : pass.changed = false) :
    ¬ Continues context n pass := by
  intro hc
  have hch := hc.changed
  rw [h] at hch
  cases hch

theorem Reaches.lt {n : Nat} {text : Text} {before : σ}
    (h : engine.Reaches context input state n text before) : n < maxPasses := by
  cases h with
  | start => decide
  | next _ _ hc => exact hc.2.1

theorem runFrom_of_continues {more : Nat} {text : Text} {before after : σ}
    {pass : FinishedPass} (hp : engine.pass context text before = (.ok pass, after))
    (hcirc : pass.circular = none) (hrec : context.recursive = true) (hch : pass.changed = true) :
    engine.runFrom context (more + 1) text before =
      ((engine.runFrom context more pass.result after).1.cons pass,
        (engine.runFrom context more pass.result after).2) := by
  rw [runFrom, hp]
  simp [hcirc, hrec, hch]

/-- Pass number `i` of a run, if it came to its end, is the pass over the string reached there. -/
def Lists (engine : Engine σ) (context : Context) (input : Text) (state : σ)
    (passes : List FinishedPass) : Prop :=
  ∀ i pass, passes[i]? = some pass → ∃ text before after,
    engine.Reaches context input state i text before ∧
      engine.pass context text before = (.ok pass, after)

private theorem Lists.append {passes : List FinishedPass}
    (h : engine.Lists context input state passes) {text : Text} {before after : σ}
    {pass : FinishedPass} (hr : engine.Reaches context input state passes.length text before)
    (hp : engine.pass context text before = (.ok pass, after)) :
    engine.Lists context input state (passes ++ [pass]) :=
  forall_getElem?_concat.mpr ⟨h, text, before, after, hr, hp⟩

/-- A run is the passes up to a reached string, followed by the run from there. -/
private theorem run_eq_of_reaches {n : Nat} {text : Text} {before : σ}
    (h : engine.Reaches context input state n text before) :
    ∃ earlier : List FinishedPass, earlier.length = n ∧
      engine.Lists context input state earlier ∧
      (∀ pass ∈ earlier, pass.changed = true ∧ pass.circular = none) ∧
      engine.run context input state =
        (⟨earlier ++ (engine.runFrom context (maxPasses - 1 - n) text before).1.passes,
          (engine.runFrom context (maxPasses - 1 - n) text before).1.ending⟩,
          (engine.runFrom context (maxPasses - 1 - n) text before).2) := by
  induction h with
  | start => exact ⟨[], rfl, fun i pass hi => by simp at hi, by simp, rfl⟩
  | @next n text before after pass hr hp hc ih =>
    obtain ⟨earlier, rfl, hl, hall, hrun⟩ := ih
    obtain ⟨hcirc, hn, hrec, hch⟩ := hc
    refine ⟨earlier ++ [pass], by simp, hl.append hr hp, ?_, ?_⟩
    · intro p hm
      rcases List.mem_append.mp hm with hm | hm
      · exact hall p hm
      · rw [List.mem_singleton.mp hm]
        exact ⟨hch, hcirc⟩
    · have hm : maxPasses - 1 - earlier.length = (maxPasses - 1 - (earlier.length + 1)) + 1 := by
        omega
      rw [hm, runFrom_of_continues hp hcirc hrec hch] at hrun
      rw [hrun]
      simp [Run.cons]

/-- Where no further pass follows the run ends with this one. -/
theorem run_of_not_continues {n : Nat} {text : Text} {before after : σ} {pass : FinishedPass}
    (h : engine.Reaches context input state n text before)
    (hp : engine.pass context text before = (.ok pass, after)) (hc : ¬ Continues context n pass) :
    ∃ earlier : List FinishedPass, earlier.length = n ∧
      engine.Lists context input state (earlier ++ [pass]) ∧
      (∀ pass ∈ earlier, pass.changed = true ∧ pass.circular = none) ∧
      engine.run context input state = (⟨earlier ++ [pass], endingOf pass n⟩, after) := by
  have hlt := h.lt
  obtain ⟨earlier, rfl, hl, hall, hrun⟩ := run_eq_of_reaches h
  refine ⟨earlier, rfl, hl.append h hp, hall, ?_⟩
  have hlast : engine.runFrom context (maxPasses - 1 - earlier.length) text before =
      (⟨[pass], endingOf pass earlier.length⟩, after) := by
    rw [runFrom, hp, endingOf]
    cases hcirc : pass.circular with
    | some token => simp [hcirc]
    | none =>
      by_cases hm : earlier.length + 1 = maxPasses
      · rw [show maxPasses - 1 - earlier.length = 0 by omega]
        simp [hm, hcirc]
      · have hno : ¬ (context.recursive = true ∧ pass.changed = true) :=
          fun hboth => hc ⟨hcirc, by omega, hboth⟩
        obtain ⟨m, hmore⟩ : ∃ m, maxPasses - 1 - earlier.length = m + 1 :=
          ⟨maxPasses - 1 - earlier.length - 1, by omega⟩
        rw [hmore]
        simp [hm, hno, hcirc]
  rw [hrun, hlast]

theorem run_of_fault {n : Nat} {text : Text} {before after : σ} {fault : Fault}
    (h : engine.Reaches context input state n text before)
    (hp : engine.pass context text before = (.error fault, after)) :
    ∃ earlier : List FinishedPass, earlier.length = n ∧
      engine.Lists context input state earlier ∧
      (∀ pass ∈ earlier, pass.changed = true ∧ pass.circular = none) ∧
      engine.run context input state = (⟨earlier, .faulted fault⟩, after) := by
  obtain ⟨earlier, rfl, hl, hall, hrun⟩ := run_eq_of_reaches h
  refine ⟨earlier, rfl, hl, hall, ?_⟩
  have hlast : engine.runFrom context (maxPasses - 1 - earlier.length) text before =
      (⟨[], .faulted fault⟩, after) := by
    rw [runFrom, hp]
  rw [hrun, hlast, List.append_nil]

/-- Some pass of a run has no further one behind it. -/
theorem exists_last (engine : Engine σ) (context : Context) (input : Text) (state : σ) :
    ∃ n text before, engine.Reaches context input state n text before ∧
      ∀ pass after, engine.pass context text before = (.ok pass, after) →
        ¬ Continues context n pass := by
  by_contra hno
  push Not at hno
  -- otherwise a pass of every number would be reached, beyond the largest one too
  have hall : ∀ n, ∃ text before, engine.Reaches context input state n text before := by
    intro n
    induction n with
    | zero => exact ⟨input, state, .start⟩
    | succ n ih =>
      obtain ⟨text, before, hr⟩ := ih
      obtain ⟨pass, after, hp, hc⟩ := hno n text before hr
      exact ⟨pass.result, after, .next hr hp hc⟩
  obtain ⟨_, _, hr⟩ := hall maxPasses
  exact absurd hr.lt (Nat.lt_irrefl _)

/-- All passes that a run keeps are passes over the strings it reaches. -/
theorem lists_run (engine : Engine σ) (context : Context) (input : Text) (state : σ) :
    engine.Lists context input state (engine.run context input state).1.passes := by
  obtain ⟨n, text, before, hr, hlast⟩ := exists_last engine context input state
  rcases hp : engine.pass context text before with ⟨fault | pass, after⟩
  · obtain ⟨earlier, _, hl, _, hrun⟩ := run_of_fault hr hp
    rw [hrun]
    exact hl
  · obtain ⟨earlier, _, hl, _, hrun⟩ := run_of_not_continues hr hp (hlast pass after hp)
    rw [hrun]
    exact hl

def lastOutcome (input : Text) (pass : FinishedPass) (n : Nat) : Outcome where
  result := Substitution.unescape pass.result
  changed := decide (0 < n) || pass.changed
  circular := pass.circular.map fun token => ⟨token.key, token.literal, input⟩
  status := match endingOf pass n with
    | .circular _ => .circularReference
    | .capped => .maxRecursionReached
    | _ => .complete
  passes := n + 1

theorem status_lastOutcome_eq_circularReference_iff {input : Text} {pass : FinishedPass} {n : Nat} :
    (lastOutcome input pass n).status = .circularReference ↔ pass.circular ≠ none := by
  rw [lastOutcome, endingOf]
  cases pass.circular with
  | some token => simp
  | none =>
    by_cases hm : n + 1 = maxPasses <;> simp [hm]

theorem status_lastOutcome_eq_complete_iff {input : Text} {pass : FinishedPass} {n : Nat} :
    (lastOutcome input pass n).status = .complete ↔
      pass.circular = none ∧ n + 1 ≠ maxPasses := by
  rw [lastOutcome, endingOf]
  cases pass.circular with
  | some token => simp
  | none =>
    by_cases hm : n + 1 = maxPasses <;> simp [hm]

theorem status_lastOutcome_eq_maxRecursionReached_iff {input : Text} {pass : FinishedPass}
    {n : Nat} :
    (lastOutcome input pass n).status = .maxRecursionReached ↔
      pass.circular = none ∧ n + 1 = maxPasses := by
  rw [lastOutcome, endingOf]
  cases pass.circular with
  | some token => simp
  | none =>
    by_cases hm : n + 1 = maxPasses <;> simp [hm]

theorem status_lastOutcome_ne_faulted (input : Text) (pass : FinishedPass) (n : Nat) :
    (lastOutcome input pass n).status ≠ .faulted := by
  rw [lastOutcome, endingOf]
  cases pass.circular with
  | some token => simp
  | none =>
    by_cases hm : n + 1 = maxPasses <;> simp [hm]

private theorem outcome_of_last {earlier : List FinishedPass} {pass : FinishedPass} (input : Text)
    (h : ∀ p ∈ earlier, p.changed = true ∧ p.circular = none) :
    (⟨earlier ++ [pass], endingOf pass earlier.length⟩ : Run).outcome input =
      lastOutcome input pass earlier.length := by
  have hchanged : (earlier ++ [pass]).any (·.changed) =
      (decide (0 < earlier.length) || pass.changed) := by
    cases earlier with
    | nil => simp
    | cons first earlier => simp [(h first List.mem_cons_self).1]
  rw [lastOutcome, endingOf]
  cases hcirc : pass.circular with
  | some token => simp [Run.outcome, Run.outcome?, Run.text, Run.changed, hchanged]
  | none =>
    by_cases hm : earlier.length + 1 = maxPasses <;>
      simp [Run.outcome, Run.outcome?, Run.text, Run.changed, hchanged, hm]

/-- An expansion reports the last pass of its run, and the problems of all of them. -/
theorem expand_of_not_continues {n : Nat} {text : Text} {before after : σ} {pass : FinishedPass}
    (h : engine.Reaches context input state n text before)
    (hp : engine.pass context text before = (.ok pass, after)) (hc : ¬ Continues context n pass) :
    ∃ earlier : List FinishedPass, earlier.length = n ∧
      engine.Lists context input state (earlier ++ [pass]) ∧
      engine.expand context input state =
        (⟨lastOutcome input pass n, (earlier ++ [pass]).flatMap (·.problems) ++
          Run.endProblems ⟨earlier ++ [pass], endingOf pass n⟩ input⟩, after) := by
  obtain ⟨earlier, rfl, hl, hall, hrun⟩ := run_of_not_continues h hp hc
  refine ⟨earlier, rfl, hl, ?_⟩
  rw [expand, hrun]
  simp only [outcome_of_last input hall, Run.problems, Run.passProblems]

theorem outcome_expand_of_not_continues {n : Nat} {text : Text} {before after : σ}
    {pass : FinishedPass} (h : engine.Reaches context input state n text before)
    (hp : engine.pass context text before = (.ok pass, after)) (hc : ¬ Continues context n pass) :
    (engine.expand context input state).1.outcome = lastOutcome input pass n := by
  obtain ⟨_, _, _, he⟩ := expand_of_not_continues h hp hc
  rw [he]

theorem expand_of_first_last {after : σ} {pass : FinishedPass}
    (hp : engine.pass context input state = (.ok pass, after)) (hcirc : pass.circular = none)
    (hc : ¬ Continues context 0 pass) :
    engine.expand context input state = (⟨lastOutcome input pass 0, pass.problems⟩, after) := by
  obtain ⟨earlier, hlen, _, he⟩ := expand_of_not_continues .start hp hc
  obtain rfl := List.length_eq_zero_iff.mp hlen
  rw [he]
  simp [Run.endProblems, endingOf, hcirc, maxPasses]

theorem expand_of_second_last {between after : σ} {first second : FinishedPass}
    (hf : engine.pass context input state = (.ok first, between)) (hc : Continues context 0 first)
    (hs : engine.pass context first.result between = (.ok second, after))
    (hcirc : second.circular = none) (hlast : ¬ Continues context 1 second) :
    engine.expand context input state =
      (⟨lastOutcome input second 1, first.problems ++ second.problems⟩, after) := by
  obtain ⟨earlier, hlen, hl, he⟩ := expand_of_not_continues (Reaches.start.next hf hc) hs hlast
  obtain ⟨only, rfl⟩ := List.length_eq_one_iff.mp hlen
  obtain ⟨_, _, _, hr, hp⟩ := hl 0 only rfl
  cases hr
  rw [hf] at hp
  obtain rfl : first = only := Except.ok.inj (Prod.mk.inj hp).1
  rw [he]
  simp [Run.endProblems, endingOf, hcirc, maxPasses]

/-- A fault in any pass undoes what the passes before it did to the string. -/
theorem outcome_expand_of_fault {n : Nat} {text : Text} {before after : σ} {fault : Fault}
    (h : engine.Reaches context input state n text before)
    (hp : engine.pass context text before = (.error fault, after)) :
    (engine.expand context input state).1.outcome = .faulted input := by
  obtain ⟨earlier, _, _, _, hrun⟩ := run_of_fault h hp
  rw [expand_eq, hrun]
  rfl

theorem status_expand_of_fault {n : Nat} {text : Text} {before after : σ} {fault : Fault}
    (h : engine.Reaches context input state n text before)
    (hp : engine.pass context text before = (.error fault, after)) :
    (engine.expand context input state).1.outcome.status = .faulted := by
  rw [outcome_expand_of_fault h hp]
  rfl

theorem exists_last_of_ne_faulted
    (h : (engine.expand context input state).1.outcome.status ≠ .faulted) :
    ∃ n text before pass after, engine.Reaches context input state n text before ∧
      engine.pass context text before = (.ok pass, after) ∧ ¬ Continues context n pass := by
  obtain ⟨n, text, before, hr, hlast⟩ := exists_last engine context input state
  rcases hp : engine.pass context text before with ⟨fault | pass, after⟩
  · exact absurd (status_expand_of_fault hr hp) h
  · exact ⟨n, text, before, pass, after, hr, hp, hlast pass after hp⟩

/-- A complete expansion with recursion comes to a pass that changes nothing. -/
theorem exists_unchanged_of_complete (hrec : context.recursive = true)
    (h : (engine.expand context input state).1.outcome.status = .complete) :
    ∃ n text before pass after, engine.Reaches context input state n text before ∧
      engine.pass context text before = (.ok pass, after) ∧
      pass.changed = false ∧ pass.circular = none ∧
      (engine.expand context input state).1.outcome = lastOutcome input pass n ∧
      ∀ problem ∈ pass.problems, problem ∈ (engine.expand context input state).1.problems := by
  obtain ⟨n, text, before, pass, after, hr, hp, hc⟩ :=
    exists_last_of_ne_faulted (by rw [h]; decide)
  obtain ⟨earlier, _, _, he⟩ := expand_of_not_continues hr hp hc
  rw [he] at h ⊢
  obtain ⟨hcirc, hn⟩ := status_lastOutcome_eq_complete_iff.mp h
  have hlt := hr.lt
  refine ⟨n, text, before, pass, after, hr, hp, ?_, hcirc, rfl, fun problem hm => ?_⟩
  · rw [← Bool.not_eq_true]
    intro hch
    exact hc ⟨hcirc, by omega, hrec, hch⟩
  · simp [hm]

end Engine
end Placeholders
