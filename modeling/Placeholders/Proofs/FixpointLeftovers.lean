import Placeholders.Proofs.CircularDetection
import Placeholders.Proofs.LeftmostLongest

/-! The tokens that a complete recursive expansion leaves behind. Its last pass changed nothing, so
each token still there has no value or has itself as its value; an environment token of the latter
kind would have been flagged. -/

namespace Placeholders
namespace Services
variable {σ : Type} {services : Services σ} {context : Context} {text : Text} {state : σ}

/-- Why a token may stand in the text of a pass that changes nothing, where `state` is the state in
which the pass starts and `problems` is what has been recorded. -/
def Lingers (services : Services σ) (context : Context) (text : Text) (state : σ)
    (problems : ProblemList) (token : Token) : Prop :=
  match token.ns with
  | .variable =>
    (context.vars.get? token.key = none ∧ ⟨.invalidReference, token.literal⟩ ∈ problems) ∨
      context.vars.get? token.key = some token.literal
  | .environment => False
  | .parentEnvironment =>
    ∃ raw, services.environment token.key = .ok raw ∧ services.normalize raw = token.literal
  | .workspaceFolder =>
    findFolder? services.folders token.key = none ∨
      ∃ folder, findFolder? services.folders token.key = some folder ∧ folder.path = token.literal
  | .variant =>
    context.variants = none ∨
      ∃ table, context.variants = some table ∧ table.get? token.key = some token.literal
  | .command =>
    if context.commandsDisabled then
      ∃ first, (scan text .command).head? = some first ∧ ⟨.commandsDisabled, first.literal⟩ ∈ problems
    else
      ((∃ reason, (token, .error reason) ∈ (services.commandAnswers context text state).1) ∧
        ⟨.commandExecutionFailed, token.literal⟩ ∈ problems) ∨
      (token, .ok token.literal) ∈ (services.commandAnswers context text state).1

theorem leadsBack_of_value_eq_literal {token : Token} (h : token ∈ scan text .environment)
    {raw : Option Text} (hraw : services.source context token.key = .ok raw)
    (hv : services.normalize raw = token.literal) : services.LeadsBack context token := by
  obtain ⟨hread, hns, _⟩ := readable_of_mem_scan h
  exact ⟨raw, hraw, token, hv ▸ hns ▸ hread.mem_scan_literal, rfl⟩

/-- A variable is unknown, or what it yields counts. -/
private theorem unknown_or_yields (services : Services σ) (state : σ) {token : Token}
    (h : token ∈ scan text .variable) :
    (context.vars.get? token.key = none ∧
        ⟨.invalidReference, token.literal⟩ ∈ (services.finished context text state).problems) ∨
      ∃ value, services.Yields context text state token value ∧
        context.vars.get? token.key = some value := by
  have hns := (readable_of_mem_scan h).2.1
  cases hg : context.vars.get? token.key with
  | none =>
    refine .inl ⟨rfl, ?_⟩
    rw [problems_finished]
    exact List.mem_append_left _ (List.mem_filterMap.mpr ⟨token, h, by simp [hg]⟩)
  | some value => exact .inr ⟨value, by rw [Yields, hns]; exact hg, rfl⟩

/-- Where commands are enabled, one that was not answered with a text is recorded as failed. -/
private theorem failed_or_yields (services : Services σ) (state : σ)
    (hd : context.commandsDisabled = false) {token : Token} (h : token ∈ scan text .command) :
    ((∃ reason, (token, .error reason) ∈ (services.commandAnswers context text state).1) ∧
        ⟨.commandExecutionFailed, token.literal⟩ ∈
          (services.finished context text state).problems) ∨
      ∃ value, services.Yields context text state token value ∧
        (token, .ok value) ∈ (services.commandAnswers context text state).1 := by
  have hns := (readable_of_mem_scan h).2.1
  obtain ⟨reason | value, ha⟩ := services.exists_mem_commandAnswers context text state hd h
  · refine .inl ⟨⟨reason, ha⟩, ?_⟩
    rw [problems_finished, commandProblems, if_neg (by simp [hd])]
    exact List.mem_append_right _ (mem_failed ha)
  · exact .inr ⟨value, by rw [Yields, hns]; exact ha, ha⟩

/-- In a pass that changes nothing every token lingers for one of the reasons given. -/
theorem lingers_of_unchanged (hf : services.fault? context text = none)
    (hu : services.flagged? context text = none)
    (hch : (services.finished context text state).changed = false) {token : Token}
    (h : token ∈ scanAll text) :
    services.Lingers context text state (services.finished context text state).problems token := by
  have hs := mem_scanAll.mp h
  have hres := mem_resolved_of_unflagged hf hu h
  have hliteral {value : Text} (hy : services.Yields context text state token value) :
      value = token.literal :=
    (services.changed_finished_eq_false_iff context text state).mp hch _ token hres value hy
  rw [Lingers]
  cases hns : token.ns with
  | «variable» =>
    rw [hns] at hs
    rcases unknown_or_yields services state hs with hnone | ⟨value, hy, hv⟩
    · exact .inl hnone
    · exact .inr (hliteral hy ▸ hv)
  | environment =>
    rw [hns] at hs hres
    obtain ⟨raw, hraw⟩ :=
      Lookup.fault?_eq_none_iff.mp (services.faultAt?_of_mem_resolved context text hres)
    have hv := hliteral ((yields_environment hns).mpr ⟨raw, hraw, rfl⟩)
    exact (flagged_ne_none_iff hf).mpr
      ⟨token, hs, leadsBack_of_value_eq_literal hs hraw hv⟩ hu
  | parentEnvironment =>
    rw [hns] at hres
    obtain ⟨raw, hraw⟩ :=
      Lookup.fault?_eq_none_iff.mp (services.faultAt?_of_mem_resolved context text hres)
    have hy : services.Yields context text state token (services.normalize raw) := by
      rw [Yields, hns]
      exact Lookup.value?_eq_some_iff.mpr ⟨raw, hraw, rfl⟩
    exact ⟨raw, hraw, hliteral hy⟩
  | workspaceFolder =>
    cases hfolder : findFolder? services.folders token.key with
    | none => exact .inl rfl
    | some folder =>
      have hy : services.Yields context text state token folder.path := by
        rw [Yields, hns]
        simp [value?, hfolder]
      exact .inr ⟨folder, rfl, hliteral hy⟩
  | variant =>
    cases hv : context.variants with
    | none => exact .inl rfl
    | some table =>
      have hy : services.Yields context text state token ((table.get? token.key).getD []) := by
        rw [Yields, hns]
        simp [value?, hv]
      cases hg : table.get? token.key with
      | none =>
        -- a variant that is not in the table is empty, which no literal is
        rw [hg] at hy
        exact absurd (hliteral hy).symm (readable_of_mem_scan hs).1.literal_ne_nil
      | some value =>
        rw [hg] at hy
        exact .inr ⟨table, rfl, hliteral hy ▸ hg⟩
  | command =>
    rw [hns] at hs
    by_cases hd : context.commandsDisabled = true
    · obtain ⟨first, rest, hscan⟩ := List.exists_cons_of_ne_nil (List.ne_nil_of_mem hs)
      rw [if_pos hd]
      refine ⟨first, by rw [hscan]; rfl, ?_⟩
      rw [problems_finished, commandProblems, if_pos hd, hscan]
      simp
    · rw [if_neg hd]
      rcases failed_or_yields services state (by simpa using hd) hs with hfailed | ⟨value, hy, ha⟩
      · exact .inl hfailed
      · exact .inr (hliteral hy ▸ ha)

private theorem Lingers.mono {problems more : ProblemList} {token : Token}
    (hm : ∀ problem ∈ problems, problem ∈ more)
    (h : services.Lingers context text state problems token) :
    services.Lingers context text state more token := by
  rw [Lingers] at h ⊢
  cases hns : token.ns with
  | «variable» =>
    rw [hns] at h
    exact h.imp_left (And.imp_right (hm _))
  | command =>
    rw [hns] at h
    by_cases hd : context.commandsDisabled = true
    · rw [if_pos hd] at h ⊢
      obtain ⟨first, hf, hp⟩ := h
      exact ⟨first, hf, hm _ hp⟩
    · rw [if_neg hd] at h ⊢
      exact h.imp_left (And.imp_right (hm _))
  | _ => rwa [hns] at h

/-- The result of a complete recursive expansion is the text of its last pass with the escapes
turned into dollar signs, and every token in that text lingers for a reason that shows in the
context, the world or the recorded problems. None of them is an environment token. -/
theorem lingers_of_complete (services : Services σ) (context : Context) (input : Text) (state : σ)
    (hrec : context.recursive = true)
    (h : ((Engine.standard services).expand context input state).1.outcome.status = .complete) :
    ∃ n text before, (Engine.standard services).Reaches context input state n text before ∧
      ((Engine.standard services).expand context input state).1.outcome.passes = n + 1 ∧
      Substitution.Unescapes text
        ((Engine.standard services).expand context input state).1.outcome.result ∧
      ∀ token ∈ scanAll text, services.Lingers context text before
        ((Engine.standard services).expand context input state).1.problems token := by
  obtain ⟨n, text, before, pass, after, hr, hp, hch, hcirc, he, hproblems⟩ :=
    Engine.exists_unchanged_of_complete hrec h
  obtain ⟨hf, rfl, _⟩ := (services.pass_eq_ok_iff context text before).mp hp
  rw [circular_finished] at hcirc
  refine ⟨n, text, before, hr, by rw [he]; rfl, ?_, fun token ht => ?_⟩
  · rw [Substitution.unescapes_iff, he, Engine.lastOutcome,
      result_finished_of_changed_eq_false _ _ _ _ hch]
  · exact (lingers_of_unchanged hf hcirc hch ht).mono hproblems

/-- Behind an unknown variable and a command that fails, both are left and recorded; the escape in
front of them is not. -/
theorem lingers_still :
    let engine := Engine.standard still
    let input := "$\x7bdollar\x7d$\x7bnone\x7d$\x7bcommand:none\x7d".toList
    ({ vars := .bare } : Context).recursive = true ∧
      (engine.expand { vars := .bare } input ()).1.outcome.status = .complete ∧
      (engine.expand { vars := .bare } input ()).1.outcome.result =
        "$$\x7bnone\x7d$\x7bcommand:none\x7d".toList ∧
      ∃ n text before, engine.Reaches { vars := .bare } input () n text before ∧
        (engine.expand { vars := .bare } input ()).1.outcome.passes = n + 1 ∧
        Substitution.Unescapes text (engine.expand { vars := .bare } input ()).1.outcome.result ∧
        ∀ token ∈ scanAll text, still.Lingers { vars := .bare } text before
          (engine.expand { vars := .bare } input ()).1.problems token := by
  have hc : ((Engine.standard still).expand { vars := .bare }
      "$\x7bdollar\x7d$\x7bnone\x7d$\x7bcommand:none\x7d".toList ()).1.outcome.status =
        .complete := by decide
  have hresult : ((Engine.standard still).expand { vars := .bare }
      "$\x7bdollar\x7d$\x7bnone\x7d$\x7bcommand:none\x7d".toList ()).1.outcome.result =
        "$$\x7bnone\x7d$\x7bcommand:none\x7d".toList := by decide
  exact ⟨rfl, hc, hresult, lingers_of_complete still _ _ () rfl hc⟩

end Services
end Placeholders
