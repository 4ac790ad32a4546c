import Mathlib.Data.List.Induction
import Placeholders.Proofs.PassSequence
import Placeholders.Proofs.StandardPass

/-! Where the passes of a run start. A run reaches one string and one state of the world per number
of a pass, so a list of these starts tells everything that the passes recorded, and which commands
were run on the way. -/

namespace Placeholders
namespace Engine
variable {σ : Type} {engine : Engine σ} {context : Context} {input : Text} {state : σ}

/-- The runs of an engine are determined: a pass of a given number starts on one string only. -/
theorem Reaches.unique {n : Nat} {text other : Text} {before between : σ}
    (h : engine.Reaches context input state n text before)
    (h' : engine.Reaches context input state n other between) :
    text = other ∧ before = between := by
  induction h generalizing other between with
  | start =>
    cases h'
    exact ⟨rfl, rfl⟩
  | @next n text before after pass hr hp hc ih =>
    cases h' with
    | next hr' hp' hc' =>
      obtain ⟨rfl, rfl⟩ := ih hr'
      rw [hp] at hp'
      obtain ⟨hpass, rfl⟩ := Prod.mk.inj hp'
      obtain rfl := Except.ok.inj hpass
      exact ⟨rfl, rfl⟩

/-- Behind a pass that no other follows no further string is reached. -/
theorem Reaches.le_of_not_continues {n m : Nat} {text other : Text} {before after between : σ}
    {pass : FinishedPass} (h : engine.Reaches context input state n text before)
    (hp : engine.pass context text before = (.ok pass, after)) (hc : ¬ Continues context n pass)
    (h' : engine.Reaches context input state m other between) : m ≤ n := by
  induction h' with
  | start => exact Nat.zero_le n
  | @next m other between behind later hr hp' hc' ih =>
    refine Nat.lt_of_le_of_ne ih fun he => ?_
    subst he
    obtain ⟨rfl, rfl⟩ := h.unique hr
    rw [hp] at hp'
    obtain rfl := Except.ok.inj (Prod.mk.inj hp').1
    exact hc hc'

/-- At each place of the list stand the string and the state on which the pass of that number
starts. -/
def Starts (engine : Engine σ) (context : Context) (input : Text) (state : σ)
    (starts : List (Text × σ)) : Prop :=
  ∀ i text before, starts[i]? = some (text, before) →
    engine.Reaches context input state i text before

theorem Starts.nil : engine.Starts context input state [] := by
  intro i text before h
  simp at h

theorem Starts.append {starts : List (Text × σ)} (h : engine.Starts context input state starts)
    {text : Text} {before : σ}
    (hr : engine.Reaches context input state starts.length text before) :
    engine.Starts context input state (starts ++ [(text, before)]) := by
  have hboth : ∀ i start, (starts ++ [(text, before)])[i]? = some start →
      engine.Reaches context input state i start.1 start.2 :=
    forall_getElem?_concat.mpr ⟨fun i start => h i start.1 start.2, hr⟩
  exact fun i other between => hboth i (other, between)

/-- Passes that are listed have starts. -/
theorem Lists.exists_starts {passes : List FinishedPass}
    (h : engine.Lists context input state passes) :
    ∃ starts : List (Text × σ), starts.length = passes.length ∧
      engine.Starts context input state starts := by
  induction passes using List.reverseRecOn with
  | nil => exact ⟨[], rfl, Starts.nil⟩
  | append_singleton passes pass ih =>
    obtain ⟨hrest, text, before, after, hr, _⟩ := forall_getElem?_concat.mp h
    obtain ⟨starts, hlen, hs⟩ := ih hrest
    rw [← hlen] at hr
    exact ⟨starts ++ [(text, before)], by simp [hlen], hs.append hr⟩

/-- The listed passes of a run are those over its starts. -/
theorem Starts.pass_of_lists {starts : List (Text × σ)} {passes : List FinishedPass}
    (h : engine.Starts context input state starts) (hl : engine.Lists context input state passes)
    {i : Nat} {text : Text} {before : σ} {pass : FinishedPass}
    (hs : starts[i]? = some (text, before)) (hp : passes[i]? = some pass) :
    ∃ after, engine.pass context text before = (.ok pass, after) := by
  obtain ⟨other, between, after, hr, hpass⟩ := hl i pass hp
  obtain ⟨rfl, rfl⟩ := hr.unique (h i text before hs)
  exact ⟨after, hpass⟩

end Engine

section Commands
variable {σ : Type}

theorem answers_append (execute : Executor σ) (folder : Text) (first second : List Token)
    (state : σ) :
    (answers execute folder (first ++ second) state).2 =
      (answers execute folder second (answers execute folder first state).2).2 := by
  induction first generalizing state with
  | nil => rfl
  | cons token first ih => simp only [List.cons_append, answers, ih]

end Commands

namespace Services
open Engine
variable {σ : Type} (services : Services σ) (context : Context)

def asked (context : Context) (text : Text) : List Token :=
  if context.commandsDisabled then [] else firstOccurrences [] (scan text .command)

def passProblems (text : Text) (state : σ) : ProblemList :=
  unknown context.vars.get? (scan text .variable) ++ services.commandProblems context text state

/-- A pass records unknown variables and what went wrong with commands. -/
theorem kind_of_mem_passProblems {text : Text} {state : σ} {problem : Problem}
    (h : problem ∈ services.passProblems context text state) :
    problem.kind = .invalidReference ∨ problem.kind = .commandsDisabled ∨
      problem.kind = .commandExecutionFailed := by
  rcases List.mem_append.mp h with hu | hc
  · exact .inl (kind_of_mem_unknown hu)
  · rw [commandProblems] at hc
    split at hc
    · obtain ⟨token, _, rfl⟩ := Option.map_eq_some_iff.mp (Option.mem_toList.mp hc)
      exact .inr (.inl rfl)
    · obtain ⟨⟨token, answer⟩, _, he⟩ := List.mem_filterMap.mp hc
      cases answer with
      | ok output => cases he
      | error reason => exact .inr (.inr (Option.some.inj he ▸ rfl))

theorem commandAnswers_eq (text : Text) (state : σ) :
    services.commandAnswers context text state =
      answers services.execute context.workspaceFolder (asked context text) state := by
  rw [commandAnswers, asked]
  split <;> rfl

variable {services context} {input : Text} {state : σ}

/-- The passes over some starts do to the world what their commands do, one after another. -/
theorem exists_starts {n : Nat} {text : Text} {before : σ}
    (h : (Engine.standard services).Reaches context input state n text before) :
    ∃ starts : List (Text × σ), starts.length = n ∧
      (Engine.standard services).Starts context input state starts ∧
      before = (answers services.execute context.workspaceFolder
        (starts.flatMap fun start => asked context start.1) state).2 := by
  induction h with
  | start => exact ⟨[], rfl, Starts.nil, rfl⟩
  | @next n text before after pass hr hp hc ih =>
    obtain ⟨starts, rfl, hs, hb⟩ := ih
    obtain ⟨_, _, hafter⟩ := (services.pass_eq_ok_iff context text before).mp hp
    refine ⟨starts ++ [(text, before)], by simp, hs.append hr, ?_⟩
    rw [commandAnswers_eq] at hafter
    rw [List.flatMap_append, List.flatMap_singleton, answers_append, ← hb, hafter]

/-- Each pass that a run keeps is the pass over a string that it reaches, and no lookup fails
there. -/
theorem exists_finished_of_mem_passes {pass : FinishedPass}
    (h : pass ∈ ((Engine.standard services).run context input state).1.passes) :
    ∃ n text before, (Engine.standard services).Reaches context input state n text before ∧
      services.fault? context text = none ∧ services.finished context text before = pass := by
  obtain ⟨n, hn⟩ := List.mem_iff_getElem?.mp h
  obtain ⟨text, before, after, hr, hp⟩ :=
    lists_run (Engine.standard services) context input state n pass hn
  obtain ⟨hf, he, _⟩ := (services.pass_eq_ok_iff context text before).mp hp
  exact ⟨n, text, before, hr, hf, he⟩

theorem eq_map_finished {starts : List (Text × σ)} {passes : List FinishedPass}
    (hs : (Engine.standard services).Starts context input state starts)
    (hl : (Engine.standard services).Lists context input state passes)
    (hlen : starts.length = passes.length) :
    passes = starts.map fun start => services.finished context start.1 start.2 := by
  apply List.ext_getElem?
  intro i
  rw [List.getElem?_map]
  cases hp : passes[i]? with
  | none =>
    rw [List.getElem?_eq_none_iff] at hp
    rw [List.getElem?_eq_none (by omega), Option.map_none]
  | some pass =>
    obtain ⟨start, hstart⟩ : ∃ start, starts[i]? = some start := by
      obtain ⟨hi, _⟩ := List.getElem?_eq_some_iff.mp hp
      exact ⟨starts[i], List.getElem?_eq_getElem (by omega)⟩
    obtain ⟨after, hpass⟩ := hs.pass_of_lists hl hstart hp
    obtain ⟨_, hfinished, _⟩ := (services.pass_eq_ok_iff context start.1 start.2).mp hpass
    rw [hstart, Option.map_some, hfinished]

/-- The problems of the passes are told by their starts. -/
theorem flatMap_problems {starts : List (Text × σ)} {passes : List FinishedPass}
    (hs : (Engine.standard services).Starts context input state starts)
    (hl : (Engine.standard services).Lists context input state passes)
    (hlen : starts.length = passes.length) :
    passes.flatMap (·.problems) =
      starts.flatMap fun start => services.passProblems context start.1 start.2 := by
  rw [eq_map_finished hs hl hlen, List.flatMap_map]
  exact List.flatMap_congr fun start _ => services.problems_finished context start.1 start.2

end Services
end Placeholders
