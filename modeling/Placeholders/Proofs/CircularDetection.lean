import Placeholders.Proofs.StandardPass
import Placeholders.Proofs.PassSequence

/-! Circular environment references. A pass looks only at the value of each token, not at chains of
values; it flags the first token whose own value names its key again, and keeps what it recorded
for the tokens before that one and for all other namespaces. -/

namespace Placeholders

theorem refersToItself_iff {value key : Text} :
    refersToItself value key = true ↔ ∃ other ∈ scan value .environment, other.key = key := by
  simp [refersToItself]

theorem Lookup.value?_eq_some_iff {source : Lookup} {normalize : Option Text → Text}
    {key value : Text} :
    source.value? normalize key = some value ↔ ∃ raw, source key = .ok raw ∧ normalize raw = value := by
  rw [Lookup.value?]
  cases source key <;> simp

theorem Lookup.fault?_eq_none_iff {source : Lookup} {key : Text} :
    source.fault? key = none ↔ ∃ raw, source key = .ok raw := by
  rw [Lookup.fault?]
  cases source key <;> simp

namespace Services
variable {σ : Type} (services : Services σ) (context : Context) {text : Text} {state : σ}

/-- The value of a token's key holds an environment placeholder for the same key. -/
def LeadsBack (token : Token) : Prop :=
  ∃ raw, services.source context token.key = .ok raw ∧
    ∃ other ∈ scan (services.normalize raw) .environment, other.key = token.key

private theorem refersBack_iff {token : Token} :
    (services.source context).refersBack services.normalize token.key = true ↔
      services.LeadsBack context token := by
  rw [LeadsBack, Lookup.refersBack, Option.any_eq_true]
  simp only [Lookup.value?_eq_some_iff, refersToItself_iff]
  constructor
  · rintro ⟨_, ⟨raw, hraw, rfl⟩, hother⟩
    exact ⟨raw, hraw, hother⟩
  · rintro ⟨raw, hraw, hother⟩
    exact ⟨_, ⟨raw, hraw, rfl⟩, hother⟩

instance : DecidablePred (services.LeadsBack context) := fun _ =>
  decidable_of_iff _ (services.refersBack_iff context)

theorem goesOn_environment {token : Token} :
    services.goesOn context .environment token = true ↔
      (services.source context).fault? token.key = none ∧ ¬ services.LeadsBack context token := by
  rw [goesOn, Lookup.goesOn, ← refersBack_iff]
  simp

variable {services context}

private theorem leadsBack_of_flagged {token : Token}
    (h : services.flagged? context text = some token) :
    token ∈ scan text .environment ∧ services.LeadsBack context token := by
  obtain ⟨hstop, hfault⟩ := Option.filter_eq_some_iff.mp h
  refine ⟨List.mem_of_find?_eq_some hstop, ?_⟩
  have hno := List.find?_some hstop
  by_contra hback
  rw [(services.goesOn_environment context).mpr ⟨by simpa using hfault, hback⟩] at hno
  cases hno

/-- In a pass without a fault the tokens before the first that leads back are all resolved. -/
theorem goesOn_of_mem_first {first rest : List Token}
    (hf : services.fault? context text = none) (hs : scan text .environment = first ++ rest)
    (hfirst : ∀ other ∈ first, ¬ services.LeadsBack context other) :
    ∀ other ∈ first, services.goesOn context .environment other = true := by
  by_contra hno
  obtain ⟨other, hm, hstop⟩ : ∃ other ∈ first, ¬ services.goesOn context .environment other = true :=
    by simpa using hno
  have hsome : (first.find? fun t => !services.goesOn context .environment t).isSome :=
    List.find?_isSome.mpr ⟨other, hm, by simpa using hstop⟩
  obtain ⟨stop, hstop⟩ := Option.isSome_iff_exists.mp hsome
  have hnone : services.faultIn? context text .environment = none := (Option.or_eq_none_iff.mp hf).1
  rw [faultIn?, stop?, hs, List.find?_append, hstop, Option.some_or, Option.bind_some] at hnone
  have hgo := (services.goesOn_environment context).mpr
    ⟨hnone, hfirst stop (List.mem_of_find?_eq_some hstop)⟩
  have := List.find?_some hstop
  rw [hgo] at this
  cases this

/-- The first environment token of a text that leads back, between those before and behind it. -/
structure FirstBack (services : Services σ) (context : Context) (text : Text)
    (first : List Token) (token : Token) (rest : List Token) : Prop where
  scanned : scan text .environment = first ++ token :: rest
  before : ∀ other ∈ first, ¬ services.LeadsBack context other
  back : services.LeadsBack context token

theorem exists_firstBack {token : Token} (h : token ∈ scan text .environment)
    (hb : services.LeadsBack context token) :
    ∃ first other rest, FirstBack services context text first other rest := by
  obtain ⟨other, ho⟩ := Option.isSome_iff_exists.mp
    (List.find?_isSome (p := fun t => decide (services.LeadsBack context t)) |>.mpr
      ⟨token, h, by simpa using hb⟩)
  obtain ⟨hback, first, rest, hs, hfirst⟩ := List.find?_eq_some_iff_append.mp ho
  exact ⟨first, other, rest, hs, by simpa using hfirst, by simpa using hback⟩

private theorem resolved_of_firstBack {first rest : List Token} {token : Token}
    (hf : services.fault? context text = none)
    (h : FirstBack services context text first token rest) :
    services.resolved context text .environment = first := by
  have hno : ¬ services.goesOn context .environment token = true :=
    fun hgo => ((services.goesOn_environment context).mp hgo).2 h.back
  rw [resolved, h.scanned, List.takeWhile_append_of_pos (goesOn_of_mem_first hf h.scanned h.before),
    List.takeWhile_cons_of_neg hno, List.append_nil]

private theorem flagged_of_firstBack {first rest : List Token} {token : Token}
    (hf : services.fault? context text = none)
    (h : FirstBack services context text first token rest) :
    services.flagged? context text = some token := by
  have hno : ¬ services.goesOn context .environment token = true :=
    fun hgo => ((services.goesOn_environment context).mp hgo).2 h.back
  have hstop : services.stop? context text = some token := by
    rw [stop?, List.find?_eq_some_iff_append]
    refine ⟨by simpa using hno, first, rest, h.scanned, fun other hm => ?_⟩
    simp [goesOn_of_mem_first hf h.scanned h.before other hm]
  obtain ⟨raw, hraw, _⟩ := h.back
  rw [flagged?, hstop, Option.filter_some, if_pos]
  simp [Lookup.fault?_eq_none_iff.mpr ⟨raw, hraw⟩]

structure Stopped (services : Services σ) (context : Context) (text : Text) (state : σ)
    (first : List Token) (token : Token) (rest : List Token) (pass : Pass) : Prop where
  input : pass.input = text
  flagged : pass.circular = some token
  /-- Of the environment, the values of the tokens before; of all else, the values as usual. -/
  holds : ∀ literal value, pass.substitution.get? literal = some value ↔
    (∃ other ∈ first, other.literal = literal ∧ ∃ raw,
      services.source context other.key = .ok raw ∧ services.normalize raw = value) ∨
    ∃ other ∈ scanAll text, other.ns ≠ .environment ∧ other.literal = literal ∧
      services.Yields context text state other value
  own : pass.substitution.get? token.literal = none
  later : ∀ other ∈ rest, other ∉ first → pass.substitution.get? other.literal = none

theorem mem_resolved_of_ne_environment (hf : services.fault? context text = none)
    {token : Token} (h : token ∈ scan text token.ns) (hne : token.ns ≠ .environment) :
    token ∈ services.resolved context text token.ns := by
  by_cases hp : token.ns = .parentEnvironment
  · have hnone := (Option.or_eq_none_iff.mp hf).2
    rw [faultIn?, List.findSome?_eq_none_iff] at hnone
    rw [hp] at h ⊢
    rw [resolved, List.takeWhile_eq_self_iff.mpr fun other hm => ?_]
    · exact h
    · simp [goesOn, hnone other hm]
  · rwa [resolved_eq_scan _ _ _ hne hp]

theorem yields_environment {token : Token} (h : token.ns = .environment) {value : Text} :
    services.Yields context text state token value ↔
      ∃ raw, services.source context token.key = .ok raw ∧ services.normalize raw = value := by
  rw [Yields, h]
  exact Lookup.value?_eq_some_iff

/-- An environment literal is bound only by a token before the one that leads back. -/
private theorem get?_of_not_mem_first {first rest : List Token} {token other : Token}
    (hf : services.fault? context text = none)
    (h : FirstBack services context text first token rest)
    (hm : other ∈ scan text .environment) (hnew : other ∉ first) :
    (services.afterParts context text state Namespace.all).substitution.get? other.literal =
      none := by
  rw [Option.eq_none_iff_forall_ne_some]
  intro value hv
  obtain ⟨ns, _, bound, hb, hl, _⟩ := (services.get?_afterParts context text state _).mp hv
  have hbs := services.mem_scan_of_mem_resolved context text hb
  rw [ns_eq_of_mem_scan hbs hm hl, eq_of_mem_scan hbs hm hl, resolved_of_firstBack hf h] at hb
  exact hnew hb

private theorem get?_of_firstBack {first rest : List Token} {token : Token}
    (hf : services.fault? context text = none)
    (h : FirstBack services context text first token rest) {literal value : Text} :
    (services.afterParts context text state Namespace.all).substitution.get? literal = some value ↔
      (∃ other ∈ first, other.literal = literal ∧ ∃ raw,
        services.source context other.key = .ok raw ∧ services.normalize raw = value) ∨
      ∃ other ∈ scanAll text, other.ns ≠ .environment ∧ other.literal = literal ∧
        services.Yields context text state other value := by
  have hres := resolved_of_firstBack hf h
  rw [get?_afterParts]
  constructor
  · rintro ⟨ns, _, other, ho, hl, hy⟩
    have hos := services.mem_scan_of_mem_resolved context text ho
    have hns := (readable_of_mem_scan hos).2.1
    by_cases hne : ns = .environment
    · rw [hne, hres] at ho
      exact .inl ⟨other, ho, hl, (yields_environment (hns.trans hne)).mp hy⟩
    · exact .inr ⟨other, mem_scanAll.mpr (hns ▸ hos), hns ▸ hne, hl, hy⟩
  · rintro (⟨other, ho, hl, hv⟩ | ⟨other, ho, hne, hl, hy⟩)
    · have hos : other ∈ scan text .environment := h.scanned ▸ List.mem_append_left _ ho
      exact ⟨.environment, Namespace.mem_all _, other, hres ▸ ho, hl,
        (yields_environment (readable_of_mem_scan hos).2.1).mpr hv⟩
    · exact ⟨other.ns, other.ns.mem_all, other,
        mem_resolved_of_ne_environment hf (mem_scanAll.mp ho) hne, hl, hy⟩

/-- A pass without a fault stops at the first token that leads back. -/
theorem stopped_of_firstBack {first rest : List Token} {token : Token} (state : σ)
    (hf : services.fault? context text = none)
    (h : FirstBack services context text first token rest) :
    Stopped services context text state first token rest
      (resolveAll context (Engine.standard services).resolvers { input := text } state).pass := by
  rw [services.resolveAll_of_fault?_eq_none context text state hf]
  refine ⟨services.input_afterParts context text state _, ?_, fun literal value => ?_, ?_, ?_⟩
  · rw [circular_afterParts, if_pos (Namespace.mem_all _), flagged_of_firstBack hf h]
  · exact get?_of_firstBack hf h
  · refine get?_of_not_mem_first hf h ?_ fun hm => h.before token hm h.back
    rw [h.scanned]
    simp
  · intro other hm hnew
    refine get?_of_not_mem_first hf h ?_ hnew
    rw [h.scanned]
    simp [hm]

theorem flagged_ne_none_iff (hf : services.fault? context text = none) :
    services.flagged? context text ≠ none ↔
      ∃ token ∈ scan text .environment, services.LeadsBack context token := by
  constructor
  · intro h
    obtain ⟨token, ht⟩ := Option.ne_none_iff_exists'.mp h
    exact ⟨token, leadsBack_of_flagged ht⟩
  · rintro ⟨token, ht, hb⟩
    obtain ⟨first, other, rest, hfb⟩ := exists_firstBack ht hb
    rw [flagged_of_firstBack hf hfb]
    simp

/-- A pass that neither fails nor flags a token resolves all tokens. -/
theorem mem_resolved_of_unflagged (hf : services.fault? context text = none)
    (hu : services.flagged? context text = none) {token : Token} (h : token ∈ scanAll text) :
    token ∈ services.resolved context text token.ns := by
  have hs := mem_scanAll.mp h
  by_cases hne : token.ns = .environment
  · have hback : ∀ other ∈ scan text .environment, ¬ services.LeadsBack context other :=
      fun other hm hb => absurd hu ((flagged_ne_none_iff hf).mpr ⟨other, hm, hb⟩)
    have hgo := goesOn_of_mem_first hf (List.append_nil _).symm hback
    rw [hne] at hs ⊢
    rwa [resolved, List.takeWhile_eq_self_iff.mpr hgo]
  · exact mem_resolved_of_ne_environment hf hs hne

private theorem fault?_eq_none_of_reaches {input : Text} {start : σ} {n : Nat}
    (h : ((Engine.standard services).expand context input start).1.outcome.status ≠ .faulted)
    (hr : (Engine.standard services).Reaches context input start n text state) :
    services.fault? context text = none := by
  cases hf : services.fault? context text with
  | none => rfl
  | some fault =>
    exact absurd (Engine.status_expand_of_fault hr (services.pass_of_fault context text state hf)) h

private theorem outcome_of_firstBack {input : Text} {start : σ} {n : Nat}
    {first rest : List Token} {token : Token}
    (hr : (Engine.standard services).Reaches context input start n text state)
    (hf : services.fault? context text = none)
    (hb : FirstBack services context text first token rest) :
    ((Engine.standard services).expand context input start).1.outcome =
        Engine.lastOutcome input (services.finished context text state) n ∧
      (services.finished context text state).circular = some token := by
  have hcirc : (services.finished context text state).circular = some token := by
    rw [circular_finished, flagged_of_firstBack hf hb]
  have hlast : ¬ Engine.Continues context n (services.finished context text state) :=
    fun hc => absurd (hcirc.symm.trans hc.1) (by simp)
  exact ⟨Engine.outcome_expand_of_not_continues hr
    (services.pass_of_fault?_eq_none context text state hf) hlast, hcirc⟩

/-- Unless a lookup fails, an expansion is circular exactly if a pass of it meets an environment
token that leads back. The first pass to do so is the last: it stops at the first such token, the
token is reported with the original input, and what the pass recorded is applied. -/
theorem circular_iff_exists_leadsBack (services : Services σ) (context : Context) (input : Text)
    (state : σ)
    (h : ((Engine.standard services).expand context input state).1.outcome.status ≠ .faulted) :
    (((Engine.standard services).expand context input state).1.outcome.status =
        .circularReference ↔
      ∃ n text before, (Engine.standard services).Reaches context input state n text before ∧
        ∃ token ∈ scan text .environment, services.LeadsBack context token) ∧
    ∀ n text before, (Engine.standard services).Reaches context input state n text before →
      ∀ first token rest, FirstBack services context text first token rest →
        let outcome := ((Engine.standard services).expand context input state).1.outcome
        let resolved :=
          resolveAll context (Engine.standard services).resolvers { input := text } before
        outcome.passes = n + 1 ∧
        outcome.circular = some ⟨token.key, token.literal, input⟩ ∧
        resolved.fault = none ∧
        Stopped services context text before first token rest resolved.pass ∧
        outcome.result =
          Substitution.unescape (resolved.pass.substitution.apply text).result := by
  refine ⟨⟨fun hs => ?_, ?_⟩, ?_⟩
  · obtain ⟨n, text, before, pass, after, hr, hp, hc⟩ := Engine.exists_last_of_ne_faulted h
    obtain ⟨_, _, _, he⟩ := Engine.expand_of_not_continues hr hp hc
    obtain ⟨hf, rfl, _⟩ := (services.pass_eq_ok_iff context text before).mp hp
    rw [he, Engine.status_lastOutcome_eq_circularReference_iff, circular_finished] at hs
    exact ⟨n, text, before, hr, (flagged_ne_none_iff hf).mp hs⟩
  · rintro ⟨n, text, before, hr, token, ht, hb⟩
    obtain ⟨first, other, rest, hfb⟩ := exists_firstBack ht hb
    obtain ⟨he, hcirc⟩ := outcome_of_firstBack hr (fault?_eq_none_of_reaches h hr) hfb
    rw [he, Engine.status_lastOutcome_eq_circularReference_iff, hcirc]
    simp
  · intro n text before hr first token rest hfb
    have hf := fault?_eq_none_of_reaches h hr
    have hstopped := stopped_of_firstBack before hf hfb
    have hres := services.resolveAll_of_fault?_eq_none context text before hf
    obtain ⟨he, hcirc⟩ := outcome_of_firstBack hr hf hfb
    refine ⟨by rw [he]; rfl, by rw [he, Engine.lastOutcome, hcirc]; rfl, by rw [hres], hstopped, ?_⟩
    rw [he, hres, Engine.lastOutcome, finished, Pass.finish, input_afterParts]

def selfNaming : Services Unit where
  __ := still
  environment := Lookup.ofTable (Table.ofList
    [("A".toList, "x$\x7benv.A\x7d".toList), ("B".toList, "$\x7benv:A\x7d".toList)])

/-- The second pass meets the variable that names itself. -/
theorem circular_selfNaming :
    ((Engine.standard selfNaming).expand { vars := .bare } "y$env\x7bB\x7d".toList
        ()).1.outcome.status ≠ .faulted ∧
      ((Engine.standard selfNaming).expand { vars := .bare } "y$env\x7bB\x7d".toList
        ()).1.outcome.circular =
          some ⟨"A".toList, "$\x7benv:A\x7d".toList, "y$env\x7bB\x7d".toList⟩ := by
  have hne : ((Engine.standard selfNaming).expand { vars := .bare } "y$env\x7bB\x7d".toList
      ()).1.outcome.status ≠ .faulted := by decide
  have hpass : (Engine.standard selfNaming).pass { vars := .bare } "y$env\x7bB\x7d".toList () =
      (.ok (selfNaming.finished { vars := .bare } "y$env\x7bB\x7d".toList ()), ()) := rfl
  have hreach := Engine.Reaches.start.next hpass ⟨by decide, by decide, rfl, by decide⟩
  have hfirst : FirstBack selfNaming { vars := .bare } "y$\x7benv:A\x7d".toList []
      ⟨"$\x7benv:A\x7d".toList, .environment, "A".toList⟩ [] := ⟨by decide, by simp, by decide⟩
  exact ⟨hne, ((circular_iff_exists_leadsBack selfNaming _ _ () hne).2 1 _ () hreach _ _ _
    hfirst).2.1⟩

end Services
end Placeholders
