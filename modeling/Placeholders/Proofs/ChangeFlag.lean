import Placeholders.Resolver.Scripted
import Placeholders.Proofs.BatchEntryPoints
import Placeholders.Proofs.OutcomeInvariants
import Placeholders.Proofs.SweepParts

/-! When an expansion counts as one that changed its string. The passes ask whether a differing
replacement was recorded, not whether a literal was found. Both come to the same as long as the
resolvers record only literals that stand in the string; one that does not keeps the passes going
although nothing happens to the string. -/

namespace Placeholders

/-- A resolver records differing replacements only for literals that stand in the string. -/
def Resolver.Grounded {σ : Type} (resolver : Resolver σ) : Prop :=
  ∀ context pass state,
    (resolver.resolve context pass state).pass.input = pass.input ∧
    ∀ literal value,
      (resolver.resolve context pass state).pass.substitution.get? literal = some value →
        pass.substitution.get? literal = some value ∨ literal = value ∨
          (literal ≠ [] ∧ literal <:+: pass.input)

namespace Scripted

theorem occursIn_iff {part text : Text} : occursIn part text = true ↔ part <:+: text := by
  induction text with
  | nil => simp [occursIn]
  | cons c text ih =>
    rw [occursIn, Bool.or_eq_true, ih, List.isPrefixOf_iff_prefix, List.infix_cons_iff]

/-- A resolver that asks for the literal before it replaces it. -/
theorem grounded_resolver {σ : Type} (name : Text) {literal : Text} (replacement : Text)
    (h : literal ≠ []) :
    (resolver (σ := σ) name [⟨literal, .substitute literal replacement⟩]).Grounded := by
  intro context pass state
  simp only [resolver, perform, Effect.perform]
  by_cases ho : occursIn literal pass.input = true
  · rw [if_pos ho]
    refine ⟨rfl, fun l value hg => ?_⟩
    rw [Pass.substitute, Table.get?_insert] at hg
    split at hg
    · next he => exact .inr (.inr (he ▸ ⟨h, occursIn_iff.mp ho⟩))
    · exact .inl hg
  · rw [if_neg ho]
    exact ⟨rfl, fun _ _ hg => .inl hg⟩

end Scripted

theorem resolveAll_append {σ : Type} (context : Context) (first second : List (Resolver σ))
    (pass : Pass) (state : σ) :
    resolveAll context (first ++ second) pass state =
      match (resolveAll context first pass state).fault with
      | some _ => resolveAll context first pass state
      | none => resolveAll context second (resolveAll context first pass state).pass
          (resolveAll context first pass state).state := by
  induction first generalizing pass state with
  | nil => rfl
  | cons resolver first ih =>
    simp only [List.cons_append, resolveAll]
    cases hf : (resolver.resolve context pass state).fault with
    | some fault => simp [hf]
    | none => simp only [ih]

namespace Engine
variable {σ : Type} (engine : Engine σ) (context : Context)

def records (text : Text) (state : σ) : Substitution :=
  (resolveAll context engine.resolvers { input := text } state).pass.substitution

def Replaces (text : Text) (state : σ) : Prop :=
  ∃ binding, .replaced binding ∈
    Substitution.parts (engine.records context text state).effective text

def Grounded (text : Text) (state : σ) : Prop :=
  ∀ binding ∈ (engine.records context text state).effective,
    binding.1 ≠ [] ∧ binding.1 <:+: text

variable {engine context}

theorem Grounded.replaces_iff {text : Text} {state : σ} (h : engine.Grounded context text state) :
    engine.Replaces context text state ↔ (engine.records context text state).effective ≠ [] := by
  rw [Replaces, Substitution.exists_replaced_iff]
  constructor
  · rintro ⟨binding, hm, _⟩
    exact List.ne_nil_of_mem hm
  · intro hne
    obtain ⟨binding, hm⟩ := List.exists_mem_of_ne_nil _ hne
    exact ⟨binding, hm, h binding hm⟩

/-- A pass that comes to its end applies what was recorded in it. -/
theorem changed_pass_iff {text : Text} {before after : σ} {pass : FinishedPass}
    (hp : engine.pass context text before = (.ok pass, after)) :
    pass.changed = true ↔ (engine.records context text before).effective ≠ [] := by
  rw [Engine.pass] at hp
  cases hf : (resolveAll context engine.resolvers { input := text } before).fault with
  | some fault =>
    simp only [hf] at hp
    cases hp
  | none =>
    simp only [hf] at hp
    obtain ⟨rfl, rfl⟩ := hp
    have hunchanged : ((engine.records context text before).apply text).changed = false ↔
        (engine.records context text before).effective = [] :=
      Substitution.changed_apply_eq_false_iff
    rw [ne_eq, ← hunchanged, Bool.not_eq_false]
    rfl

/-- An expansion counts as one that changed its string if it had no fault and some pass recorded a
differing replacement. -/
theorem changed_expand_iff {input : Text} {state : σ} :
    (engine.expand context input state).1.outcome.changed = true ↔
      (engine.expand context input state).1.outcome.status ≠ .faulted ∧
        ∃ n text before, engine.Reaches context input state n text before ∧
          (engine.records context text before).effective ≠ [] := by
  obtain ⟨n, text, before, hr, hlast⟩ := exists_last engine context input state
  rcases hp : engine.pass context text before with ⟨fault | pass, after⟩
  · rw [outcome_expand_of_fault hr hp]
    exact ⟨nofun, fun h => absurd rfl h.1⟩
  · have hc := hlast pass after hp
    rw [outcome_expand_of_not_continues hr hp hc]
    constructor
    · intro hch
      refine ⟨status_lastOutcome_ne_faulted input pass n, ?_⟩
      rcases (Bool.or_eq_true _ _).mp hch with hn | hch
      · cases hr with
        | start => cases hn
        | next hr' hp' hc' => exact ⟨_, _, _, hr', (changed_pass_iff hp').mp hc'.changed⟩
      · exact ⟨n, text, before, hr, (changed_pass_iff hp).mp hch⟩
    · rintro ⟨_, m, other, between, hm, heffective⟩
      rcases n.eq_zero_or_pos with rfl | hn
      · -- the only pass there was
        obtain rfl := Nat.le_zero.mp (hr.le_of_not_continues hp hc hm)
        obtain ⟨rfl, rfl⟩ := hr.unique hm
        simp [lastOutcome, (changed_pass_iff hp).mpr heffective]
      · simp [lastOutcome, hn]

/-- Where an expansion has no fault every pass comes to its end. -/
theorem exists_pass_of_reaches {input : Text} {state : σ}
    (hs : (engine.expand context input state).1.outcome.status ≠ .faulted) {n : Nat} {text : Text}
    {before : σ} (hr : engine.Reaches context input state n text before) :
    ∃ pass after, engine.pass context text before = (.ok pass, after) := by
  rcases hp : engine.pass context text before with ⟨fault | pass, after⟩
  · exact absurd (status_expand_of_fault hr hp) hs
  · exact ⟨pass, after, rfl⟩

/-- Resolvers that record only literals of the string leave a grounded pass behind. -/
private theorem grounded_resolveAll {resolvers : List (Resolver σ)}
    (h : ∀ resolver ∈ resolvers, resolver.Grounded) (pass : Pass) (state : σ) :
    ∀ literal value,
      (resolveAll context resolvers pass state).pass.substitution.get? literal = some value →
        pass.substitution.get? literal = some value ∨ literal = value ∨
          (literal ≠ [] ∧ literal <:+: pass.input) := by
  induction resolvers generalizing pass state with
  | nil => exact fun _ _ hg => .inl hg
  | cons resolver resolvers ih =>
    obtain ⟨hfirst, hrest⟩ := List.forall_mem_cons.mp h
    obtain ⟨hinput, hown⟩ := hfirst context pass state
    intro literal value hg
    rw [resolveAll] at hg
    cases hf : (resolver.resolve context pass state).fault with
    | some fault =>
      simp only [hf] at hg
      exact hown literal value hg
    | none =>
      simp only [hf] at hg
      rcases ih hrest _ _ literal value hg with hg | hg
      · exact hown literal value hg
      · rw [hinput] at hg
        exact .inr hg

end Engine

namespace Services
variable {σ : Type}

/-- The six resolvers record the literals of tokens, which stand in the string; so an engine of
them and of grounded ones is grounded in every pass that comes to its end. -/
theorem grounded_foldl_append (services : Services σ) {added : List (Resolver σ)}
    (h : ∀ resolver ∈ added, resolver.Grounded) {context : Context} {text : Text}
    {before after : σ} {pass : FinishedPass}
    (hp : (added.foldl Engine.append (Engine.standard services)).pass context text before =
      (.ok pass, after)) :
    (added.foldl Engine.append (Engine.standard services)).Grounded context text before := by
  rintro ⟨literal, value⟩ hm
  obtain ⟨hg, hne⟩ := Substitution.mem_effective.mp hm
  rw [Engine.records, Engine.resolvers_foldl_append, resolveAll_append, fault_resolveAll] at hg
  cases hf : services.fault? context text with
  | some fault =>
    -- such a pass does not come to its end
    obtain ⟨hfault, _⟩ := services.resolveAll_of_fault context text before hf
    rw [Engine.pass, Engine.resolvers_foldl_append, resolveAll_append, hfault] at hp
    simp only [hfault] at hp
    cases hp
  | none =>
    simp only [hf] at hg
    rw [services.resolveAll_of_fault?_eq_none context text before hf] at hg
    rcases Engine.grounded_resolveAll h _ _ literal value hg with hg | rfl | hg
    · obtain ⟨ns, _, token, ht, rfl, _⟩ := (services.get?_afterParts context text before _).mp hg
      obtain ⟨hread, _, hi⟩ :=
        readable_of_mem_scan (services.mem_scan_of_mem_resolved context text ht)
      exact ⟨hread.literal_ne_nil, hi⟩
    · exact absurd rfl hne
    · rwa [input_afterParts] at hg

/-- Whichever resolvers are added to the six, an expansion without a fault counts as one that
changed its string exactly if some pass recorded a differing replacement. If the added ones record
differing replacements only for literals that stand in the string, it does so exactly if some pass
replaced a literal. -/
theorem changed_expand_iff_replaces (services : Services σ) (added : List (Resolver σ))
    (context : Context) (input : Text) (state : σ) :
    let engine := added.foldl Engine.append (Engine.standard services)
    let outcome := (engine.expand context input state).1.outcome
    (outcome.changed = true ↔ outcome.status ≠ .faulted ∧
      ∃ n text before, engine.Reaches context input state n text before ∧
        (engine.records context text before).effective ≠ []) ∧
    ((∀ resolver ∈ added, resolver.Grounded) →
      (outcome.changed = true ↔ outcome.status ≠ .faulted ∧
        ∃ n text before, engine.Reaches context input state n text before ∧
          engine.Replaces context text before)) := by
  intro engine outcome
  refine ⟨Engine.changed_expand_iff, fun hadded => Engine.changed_expand_iff.trans ?_⟩
  refine and_congr_right fun hs => ?_
  have hsame (n : Nat) (text : Text) (before : σ)
      (hr : engine.Reaches context input state n text before) :
      engine.Replaces context text before ↔
        (engine.records context text before).effective ≠ [] := by
    obtain ⟨pass, after, hp⟩ := Engine.exists_pass_of_reaches hs hr
    exact (services.grounded_foldl_append hadded hp).replaces_iff
  constructor
  · rintro ⟨n, text, before, hr, he⟩
    exact ⟨n, text, before, hr, (hsame n text before hr).mpr he⟩
  · rintro ⟨n, text, before, hr, he⟩
    exact ⟨n, text, before, hr, (hsame n text before hr).mp he⟩

/-- A resolver that turns the sign for "at" into the word, where there is one. -/
theorem changed_expand_iff_replaces_at :
    let added := [Scripted.resolver "at".toList [⟨"@".toList, .substitute "@".toList "at".toList⟩]]
    let engine := added.foldl Engine.append (Engine.standard still)
    let input := "here@home".toList
    ((∀ resolver ∈ added, resolver.Grounded) ∧
      (engine.expand { vars := .bare } input ()).1.outcome.changed = true) ∧
    ∃ n text before, engine.Reaches { vars := .bare } input () n text before ∧
      engine.Replaces { vars := .bare } text before := by
  intro added engine input
  have hadded : ∀ resolver ∈ added, resolver.Grounded := by
    intro resolver hm
    rw [List.mem_singleton.mp hm]
    exact Scripted.grounded_resolver _ _ (by decide)
  have hch : (engine.expand { vars := .bare } input ()).1.outcome.changed = true := by
    decide +kernel
  obtain ⟨_, hiff⟩ := changed_expand_iff_replaces still added { vars := .bare } input ()
  -- at full transparency the two sides would be compared by running the expansion
  obtain ⟨_, hreplaces⟩ := (hiff hadded).mp (by with_reducible exact hch)
  exact ⟨⟨hadded, hch⟩, hreplaces⟩

/-- A resolver that records a replacement for a text that is not there: no pass replaces anything,
and yet the string counts as changed and takes as many passes as are allowed. -/
theorem changed_without_replacement :
    let ghost : Resolver Unit :=
      Scripted.resolver "ghost".toList [⟨[], .substitute "absent".toList "gone".toList⟩]
    let engine := (Engine.standard still).append ghost
    let input := "text".toList
    (engine.expand { vars := .bare } input ()).1.outcome =
        { result := input, changed := true, status := .maxRecursionReached, passes := maxPasses } ∧
      (∀ n text before, engine.Reaches { vars := .bare } input () n text before →
        ¬ engine.Replaces { vars := .bare } text before) ∧
      ((Engine.standard still).expand { vars := .bare } input ()).1.outcome =
        { result := input, changed := false, status := .complete, passes := 1 } := by
  intro ghost engine input
  have hpass : engine.pass { vars := .bare } input () =
      (.ok ⟨input, input, true, none, []⟩, ()) := by
    decide +kernel
  have htext (n : Nat) (text : Text) (before : Unit)
      (hr : engine.Reaches { vars := .bare } input () n text before) : text = input := by
    induction hr with
    | start => rfl
    | next _ hp _ ih =>
      rw [ih, hpass] at hp
      exact (congrArg FinishedPass.result (Except.ok.inj (Prod.mk.inj hp).1)).symm
  have hparts : Substitution.parts (engine.records { vars := .bare } input ()).effective input =
      input.map .kept := by
    decide +kernel
  refine ⟨by decide +kernel, fun n text before hr hreplaces => ?_, by decide +kernel⟩
  rw [htext n text before hr] at hreplaces
  obtain ⟨binding, hm⟩ := hreplaces
  rw [hparts] at hm
  obtain ⟨c, _, hc⟩ := List.mem_map.mp hm
  cases hc

end Services
end Placeholders
