import Placeholders.Proofs.ProblemTrace

/-! The cap on the passes. An expansion is cut off when as many passes as are allowed have come to
their end, and what the last of them did to the string is not asked: all that being cut off tells is
that every pass before the last one still changed something. -/

namespace Placeholders
namespace Engine
variable {σ : Type} (engine : Engine σ) (context : Context) (input : Text) (state : σ)

/-- A run keeps passes that asked for another one, behind them perhaps one that did not. Without it
a lookup has failed, and then the largest number of passes was not reached. -/
theorem passes_run_cases :
    ∃ earlier : List FinishedPass,
      earlier.length < maxPasses ∧
      (∀ pass ∈ earlier, pass.changed = true ∧ pass.circular = none) ∧
      (0 < earlier.length → context.recursive = true) ∧
      (((engine.run context input state).1.passes = earlier ∧
          (engine.expand context input state).1.outcome = .faulted input) ∨
        ∃ last, (engine.run context input state).1.passes = earlier ++ [last] ∧
          (engine.expand context input state).1.outcome =
            lastOutcome input last earlier.length) := by
  obtain ⟨n, text, before, hr, hlast⟩ := exists_last engine context input state
  have hrec : 0 < n → context.recursive = true := by
    intro hn
    cases hr with
    | start => exact absurd hn (Nat.lt_irrefl 0)
    | next _ _ hc => exact hc.recursive
  rcases hp : engine.pass context text before with ⟨fault | pass, after⟩
  · obtain ⟨earlier, rfl, _, hall, hrun⟩ := run_of_fault hr hp
    exact ⟨earlier, hr.lt, hall, hrec, .inl ⟨by rw [hrun], outcome_expand_of_fault hr hp⟩⟩
  · have hc := hlast pass after hp
    obtain ⟨earlier, rfl, _, hall, hrun⟩ := run_of_not_continues hr hp hc
    exact ⟨earlier, hr.lt, hall, hrec,
      .inr ⟨pass, by rw [hrun], outcome_expand_of_not_continues hr hp hc⟩⟩

/-- Being cut off is a matter of the number of passes and of flagged tokens alone. -/
theorem status_expand_eq_maxRecursionReached_iff :
    (engine.expand context input state).1.outcome.status = .maxRecursionReached ↔
      (engine.run context input state).1.passes.length = maxPasses ∧
        ∀ pass ∈ (engine.run context input state).1.passes, pass.circular = none := by
  obtain ⟨earlier, hlt, hall, _, ⟨hpasses, houtcome⟩ | ⟨last, hpasses, houtcome⟩⟩ :=
    passes_run_cases engine context input state
  · rw [hpasses, houtcome]
    exact ⟨nofun, fun h => absurd h.1 (Nat.ne_of_lt hlt)⟩
  · rw [hpasses, houtcome, status_lastOutcome_eq_maxRecursionReached_iff, List.length_append,
      List.length_singleton, and_comm, and_congr_right_iff]
    intro _
    constructor
    · intro hcirc pass hm
      rcases List.mem_append.mp hm with hm | hm
      · exact (hall pass hm).2
      · exact List.mem_singleton.mp hm ▸ hcirc
    · intro h
      exact h last (by simp)

theorem changed_of_mem_dropLast_passes {pass : FinishedPass}
    (h : pass ∈ (engine.run context input state).1.passes.dropLast) : pass.changed = true := by
  obtain ⟨earlier, _, hall, _, ⟨hpasses, _⟩ | ⟨last, hpasses, _⟩⟩ :=
    passes_run_cases engine context input state
  · rw [hpasses] at h
    exact (hall pass (List.dropLast_subset _ h)).1
  · rw [hpasses, List.dropLast_concat] at h
    exact (hall pass h).1

theorem recursive_of_two_le_passes
    (h : 2 ≤ (engine.run context input state).1.passes.length) : context.recursive = true := by
  obtain ⟨earlier, _, _, hrec, ⟨hpasses, _⟩ | ⟨last, hpasses, _⟩⟩ :=
    passes_run_cases engine context input state
  · rw [hpasses] at h
    exact hrec (Nat.lt_of_lt_of_le Nat.two_pos h)
  · rw [hpasses, List.length_append, List.length_singleton] at h
    exact hrec (Nat.lt_of_succ_lt_succ h)

variable {engine context input state}

/-- A string that has settled in some pass before the last one allowed is complete. -/
theorem outcome_expand_of_unchanged {n : Nat} {pass : FinishedPass} (hn : n + 1 < maxPasses)
    (hp : (engine.run context input state).1.passes[n]? = some pass) (hch : pass.changed = false)
    (hcirc : pass.circular = none) :
    (engine.expand context input state).1.outcome.status = .complete ∧
      (engine.expand context input state).1.outcome.passes = n + 1 := by
  obtain ⟨earlier, _, hall, _, hrun⟩ := passes_run_cases engine context input state
  have hno (i : Nat) : earlier[i]? ≠ some pass := by
    intro hi
    have hchanged := (hall pass (List.mem_of_getElem? hi)).1
    rw [hch] at hchanged
    cases hchanged
  rcases hrun with ⟨hpasses, _⟩ | ⟨last, hpasses, houtcome⟩
  · rw [hpasses] at hp
    exact absurd hp (hno n)
  · rw [hpasses] at hp
    rcases lt_trichotomy n earlier.length with hlt | rfl | hgt
    · rw [List.getElem?_append_left hlt] at hp
      exact absurd hp (hno n)
    · rw [List.getElem?_concat_length] at hp
      obtain rfl := Option.some.inj hp
      rw [houtcome]
      exact ⟨status_lastOutcome_eq_complete_iff.mpr ⟨hcirc, Nat.ne_of_lt hn⟩, rfl⟩
    · rw [List.getElem?_eq_none (by simp; omega)] at hp
      cases hp

end Engine

namespace Services
variable {σ : Type}

/-- An expansion is cut off exactly if as many passes as are allowed came to their end and none of
them flagged a token. Then it is one with recursion, every pass but the last one changed something,
and a single problem tells of it. A string that a pass before the last one allowed leaves alone is
complete after that pass, without such a problem. -/
theorem capped_iff_unsettled (services : Services σ) (context : Context) (input : Text) (state : σ) :
    let run := ((Engine.standard services).run context input state).1
    let expansion := ((Engine.standard services).expand context input state).1
    (expansion.outcome.status = .maxRecursionReached ↔
      run.passes.length = maxPasses ∧ ∀ pass ∈ run.passes, pass.circular = none) ∧
    (expansion.outcome.status = .maxRecursionReached →
      context.recursive = true ∧ (∀ pass ∈ run.passes.dropLast, pass.changed = true) ∧
        expansion.problems.countKind .maxRecursionReached = 1) ∧
    ∀ n pass, n + 1 < maxPasses → run.passes[n]? = some pass → pass.changed = false →
      pass.circular = none →
        expansion.outcome.status = .complete ∧ expansion.outcome.passes = n + 1 ∧
          expansion.problems.countKind .maxRecursionReached = 0 := by
  -- without the abbreviations: comparing one of them with its value runs the expansion
  dsimp only
  have hkind : Status.maxRecursionReached.problemKind? = some .maxRecursionReached := rfl
  have hcount := services.countKind_expand context input state hkind
  have hiff := Engine.status_expand_eq_maxRecursionReached_iff (Engine.standard services) context
    input state
  refine ⟨hiff, fun hs => ?_, fun n pass hn hp hch hcirc => ?_⟩
  · have hten := (hiff.mp hs).1
    refine ⟨Engine.recursive_of_two_le_passes (Engine.standard services) context input state ?_,
      fun pass hm => Engine.changed_of_mem_dropLast_passes _ _ _ _ hm, ?_⟩
    · rw [hten]
      decide
    · rw [hcount, if_pos hs]
  · obtain ⟨hs, hpasses⟩ := Engine.outcome_expand_of_unchanged hn hp hch hcirc
    refine ⟨hs, hpasses, ?_⟩
    rw [hcount, if_neg (by rw [hs]; decide)]

def chained : Context where
  vars := .bare
  variants := some (Table.ofList
    [("1".toList, "$\x7bvariant:2\x7d".toList), ("2".toList, "$\x7bvariant:3\x7d".toList),
     ("3".toList, "$\x7bvariant:4\x7d".toList), ("4".toList, "$\x7bvariant:5\x7d".toList),
     ("5".toList, "$\x7bvariant:6\x7d".toList), ("6".toList, "$\x7bvariant:7\x7d".toList),
     ("7".toList, "$\x7bvariant:8\x7d".toList), ("8".toList, "$\x7bvariant:9\x7d".toList),
     ("9".toList, "end".toList)])

/-- The whole chain is cut off; from its last but one link on it settles in the third pass. -/
theorem capped_iff_unsettled_chained :
    let whole := ((Engine.standard still).expand chained "$\x7bvariant:1\x7d".toList ()).1
    let run := ((Engine.standard still).run chained "$\x7bvariant:8\x7d".toList ()).1
    let short := ((Engine.standard still).expand chained "$\x7bvariant:8\x7d".toList ()).1
    let third : FinishedPass := ⟨"end".toList, "end".toList, false, none, []⟩
    (whole.outcome.status = .maxRecursionReached ∧
      whole.problems.countKind .maxRecursionReached = 1) ∧
    (2 + 1 < maxPasses ∧ run.passes[2]? = some third) ∧
      short.outcome.status = .complete ∧ short.outcome.passes = 3 ∧
        short.problems.countKind .maxRecursionReached = 0 := by
  intro whole run short third
  have hcapped : whole.outcome.status = .maxRecursionReached := by decide +kernel
  have hthird : run.passes[2]? = some third := by decide +kernel
  have hwhole := capped_iff_unsettled still chained "$\x7bvariant:1\x7d".toList ()
  have hshort := capped_iff_unsettled still chained "$\x7bvariant:8\x7d".toList ()
  exact ⟨⟨hcapped, (hwhole.2.1 hcapped).2.2⟩, ⟨by decide, hthird⟩,
    hshort.2.2 2 third (by decide) hthird rfl rfl⟩

/-- The last of the passes that are allowed may find nothing left to change: nine links take nine
passes, and the tenth one leaves the string alone. -/
theorem capped_settled :
    let run := ((Engine.standard still).run chained "$\x7bvariant:1\x7d".toList ()).1
    let expansion := ((Engine.standard still).expand chained "$\x7bvariant:1\x7d".toList ()).1
    chained.recursive = true ∧
      run.passes[9]? = some ⟨"end".toList, "end".toList, false, none, []⟩ ∧
      expansion.outcome.status = .maxRecursionReached ∧
      expansion.problems = [⟨.maxRecursionReached, "end".toList⟩] := by
  intro run expansion
  exact ⟨rfl, by decide +kernel, by decide +kernel, by decide +kernel⟩

end Services
end Placeholders
