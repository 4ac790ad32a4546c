import Placeholders.Batch
import Placeholders.Proofs.PassSequence
import Placeholders.Proofs.StandardPass

/-! Two expansions side by side. If the passes of two engines do the same to every string that the
first engine reaches, both expansions report the same, however much the engines, their contexts and
the worlds around them differ otherwise. -/

namespace Placeholders
namespace Engine
variable {σ τ : Type} {engine : Engine σ} {twin : Engine τ} {context other : Context}
variable {related : σ → τ → Prop}

/-- From related states the passes of two engines over a text give the same, or fail alike, and leave
related states behind. -/
def Agree (engine : Engine σ) (twin : Engine τ) (context other : Context) (related : σ → τ → Prop)
    (text : Text) : Prop :=
  ∀ before beside, related before beside → ∃ behind,
    twin.pass other text beside = ((engine.pass context text before).1, behind) ∧
      related (engine.pass context text before).2 behind

/-- From a string on that the first engine reaches, both runs go through the same passes. -/
private theorem runFrom_of_agree {input : Text} {state : σ}
    (hrec : other.recursive = context.recursive)
    (hagree : ∀ n text before, engine.Reaches context input state n text before →
      engine.Agree twin context other related text)
    (more : Nat) (text : Text) (before : σ) {n : Nat} {beside : τ} (hn : n + more < maxPasses)
    (hr : engine.Reaches context input state n text before) (hrel : related before beside) :
    ∃ behind, twin.runFrom other more text beside =
        ((engine.runFrom context more text before).1, behind) ∧
      related (engine.runFrom context more text before).2 behind := by
  obtain ⟨behind, hq, hafter⟩ := hagree n text before hr before beside hrel
  fun_induction engine.runFrom context more text before generalizing n beside behind with
  | case1 more text before fault after hp =>
    rw [hp] at hq hafter
    exact ⟨behind, by rw [runFrom, hq], hafter⟩
  | case2 more text before pass after hp token hcirc =>
    rw [hp] at hq hafter
    exact ⟨behind, by simp [runFrom, hq, hcirc], hafter⟩
  | case3 text before pass after hp hcirc =>
    rw [hp] at hq hafter
    exact ⟨behind, by simp [runFrom, hq, hcirc], hafter⟩
  | case4 text before pass after hp more hcirc hgo run last hrun ih =>
    rw [hp] at hq hafter
    obtain ⟨hrecursive, hchanged⟩ := Bool.and_eq_true_iff.mp hgo
    have hnext := hr.next hp ⟨hcirc, by omega, hrecursive, hchanged⟩
    obtain ⟨second, hsecond, hbetween⟩ := hagree (n + 1) pass.result after hnext after behind hafter
    obtain ⟨final, hrest, hfinal⟩ := ih (by omega) hnext hafter second hsecond hbetween
    rw [hrun] at hrest hfinal
    refine ⟨final, ?_, hfinal⟩
    rw [runFrom_of_continues hq hcirc (hrec.trans hrecursive) hchanged, hrest]
  | case5 text before pass after hp more hcirc hstop =>
    rw [hp] at hq hafter
    exact ⟨behind, by simp [runFrom, hq, hcirc, hrec, hstop], hafter⟩

/-- Where the passes over all reached strings agree, the other engine reaches no further string. -/
theorem Reaches.of_agree {input : Text} {state : σ} {beside : τ}
    (hrec : other.recursive = context.recursive)
    (hagree : ∀ n text before, engine.Reaches context input state n text before →
      engine.Agree twin context other related text)
    (hrel : related state beside) {n : Nat} {text : Text} {between : τ}
    (h : twin.Reaches other input beside n text between) :
    ∃ before, engine.Reaches context input state n text before ∧ related before between := by
  induction h with
  | start => exact ⟨state, .start, hrel⟩
  | @next n text between behind pass _ hp hc ih =>
    obtain ⟨before, hr, hbetween⟩ := ih
    obtain ⟨last, hq, hafter⟩ := hagree n text before hr before between hbetween
    rw [hp] at hq
    obtain ⟨hpass, rfl⟩ := Prod.mk.inj hq
    obtain ⟨hcirc, hn, hrecursive, hchanged⟩ := hc
    exact ⟨_, hr.next (Prod.ext hpass.symm rfl) ⟨hcirc, hn, hrec.symm.trans hrecursive, hchanged⟩,
      hafter⟩

/-- Where the passes over all reached strings agree, so do the expansions. -/
theorem expand_of_agree {input : Text} {state : σ} {beside : τ}
    (hrec : other.recursive = context.recursive)
    (hagree : ∀ n text before, engine.Reaches context input state n text before →
      engine.Agree twin context other related text)
    (hrel : related state beside) :
    ∃ behind, twin.expand other input beside = ((engine.expand context input state).1, behind) ∧
      related (engine.expand context input state).2 behind := by
  obtain ⟨behind, hrun, hafter⟩ :=
    runFrom_of_agree hrec hagree (maxPasses - 1) input state (by decide) .start hrel
  rw [← run, ← run] at hrun
  refine ⟨behind, ?_, hafter⟩
  rw [expand_eq, expand_eq, hrun]

/-- In one and the same world passes that agree leave no difference at all. -/
theorem expand_eq_of_agree {twin : Engine σ} {input : Text} {state : σ}
    (hrec : other.recursive = context.recursive)
    (hagree : ∀ n text before, engine.Reaches context input state n text before →
      engine.Agree twin context other Eq text) :
    twin.expand other input state = engine.expand context input state := by
  obtain ⟨behind, hexpand, hbehind⟩ := expand_of_agree hrec hagree rfl
  rw [hexpand, ← hbehind]

/-- Where the passes over all strings agree, a batch gives the same string by string. -/
theorem expandEach_of_agree (hrec : other.recursive = context.recursive)
    (hagree : ∀ text, engine.Agree twin context other related text) (inputs : List Text)
    {state : σ} {beside : τ} (hrel : related state beside) :
    ∃ behind, twin.expandEach other inputs beside =
        ((engine.expandEach context inputs state).1, behind) ∧
      related (engine.expandEach context inputs state).2 behind := by
  induction inputs generalizing state beside with
  | nil => exact ⟨beside, rfl, hrel⟩
  | cons input inputs ih =>
    obtain ⟨between, hfirst, hafter⟩ :=
      expand_of_agree hrec (fun _ text _ _ => hagree text) hrel
    obtain ⟨behind, hrest, hlast⟩ := ih hafter
    exact ⟨behind, by simp [expandEach, hfirst, hrest], hlast⟩

end Engine

namespace Services
variable {σ τ : Type} {services : Services σ} {others : Services τ} {context other : Context}
variable {related : σ → τ → Prop} {text : Text}

/-- Passes over a text agree if they fail alike and each namespace adds the same to them. -/
theorem agree_of_part (hf : others.fault? other text = services.fault? context text)
    (h : ∀ before beside, related before beside →
      others.part other text beside = services.part context text before ∧
        related (services.commandAnswers context text before).2
          (others.commandAnswers other text beside).2) :
    (Engine.standard services).Agree (Engine.standard others) context other related text := by
  intro before beside hrel
  obtain ⟨hpart, hafter⟩ := h before beside hrel
  cases hfault : services.fault? context text with
  | some fault =>
    rw [services.pass_of_fault context text before hfault]
    exact ⟨beside, others.pass_of_fault other text beside (hf.trans hfault), hrel⟩
  | none =>
    have hfinished : others.finished other text beside = services.finished context text before := by
      rw [finished, finished, afterParts, afterParts, hpart]
    rw [services.pass_of_fault?_eq_none context text before hfault, ← hfinished]
    exact ⟨_, others.pass_of_fault?_eq_none other text beside (hf.trans hfault), hafter⟩

end Services
end Placeholders
