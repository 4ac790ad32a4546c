import Placeholders.Engine.Expand
import Placeholders.Proofs.StandardPass

/-! Where placeholders end. A key has a closing brace at its front at most, and then only where an
opening is directly followed by that brace. In a text without such an opening every placeholder ends
at the first brace behind its opening, so a text falls apart behind each closing brace: what is
found and replaced in front of that place has nothing to do with what is found and replaced behind
it. With such an opening a placeholder goes on to the next brace, over all that stands between. -/

namespace Placeholders

/-- What ends with an element and has it nowhere else lies in front of the place behind the element
if it begins there. -/
private theorem closed_prefix_append_iff {α : Type} {word start back : List α} {last : α}
    (h : last ∉ word) :
    word ++ [last] <+: start ++ [last] ++ back ↔ word ++ [last] <+: start ++ [last] := by
  constructor
  · intro hp
    refine (concat_prefix_append_cases hp).resolve_right ?_
    rintro ⟨before, rfl, _⟩
    exact h (by simp)
  · exact fun hp => hp.trans (List.prefix_append _ back)

/-- No opening for keys of a line is directly followed by a closing brace. -/
def Keyed (text : Text) : Prop :=
  ∀ g ∈ Grammar.table, g.keys = .line → ¬ g.opening ++ ['}'] <:+: text

instance : DecidablePred Keyed := fun text =>
  inferInstanceAs (Decidable (∀ g ∈ Grammar.table, g.keys = .line → ¬ g.opening ++ ['}'] <:+: text))

theorem Keyed.of_infix {text part : Text} (h : Keyed text) (hp : part <:+: text) : Keyed part :=
  fun g hg hline hopening => h g hg hline (hopening.trans hp)

namespace Grammar
variable {g : Grammar} {key text : Text}

/-- Behind its front a key has no closing brace. -/
theorem brace_not_mem_tail (h : g.keys.Admits key) : '}' ∉ key.tail := by
  intro hb
  cases hg : g.keys with
  | word =>
    rw [hg] at h
    exact absurd (h.2 _ (List.mem_of_mem_tail hb)) (by simp [Text.isWord_brace])
  | line =>
    rw [hg] at h
    cases key with
    | nil => exact h
    | cons c tail => exact (h.2 _ hb).1 rfl

/-- A key with a closing brace stands for one that is missing. -/
theorem of_brace_mem (h : g.keys.Admits key) (hb : '}' ∈ key) :
    g.keys = .line ∧ g.opening ++ ['}'] <+: g.literal key := by
  cases hg : g.keys with
  | word =>
    rw [hg] at h
    exact absurd (h.2 _ hb) (by simp [Text.isWord_brace])
  | line =>
    have htail := brace_not_mem_tail h
    cases key with
    | nil => cases hb
    | cons c tail =>
      obtain rfl := (List.mem_cons.mp hb).resolve_right htail
      exact ⟨rfl, tail ++ ['}'], by simp [literal]⟩

theorem brace_not_mem_of_keyed (hg : g ∈ table) (h : Keyed text) (hk : g.keys.Admits key)
    (hl : g.literal key <:+: text) : '}' ∉ key := by
  intro hb
  obtain ⟨hline, hopening⟩ := of_brace_mem hk hb
  exact h g hg hline (hopening.isInfix.trans hl)

theorem brace_not_mem_opening (hg : g ∈ table) : '}' ∉ g.opening := by
  revert g
  decide

/-- What is read in front of a closing brace ends there, if every placeholder has a key. -/
theorem key?_append_closed (hg : g ∈ table) {start back : Text}
    (h : Keyed (start ++ ['}'] ++ back)) :
    g.key? (start ++ ['}'] ++ back) = g.key? (start ++ ['}']) := by
  apply Option.ext
  intro key
  rw [key?_eq_some_iff, key?_eq_some_iff]
  refine and_congr_right fun hk => ⟨fun hp => ?_, fun hp => hp.trans (List.prefix_append _ back)⟩
  have hword : '}' ∉ g.opening ++ key :=
    List.not_mem_append (brace_not_mem_opening hg) (brace_not_mem_of_keyed hg h hk hp.isInfix)
  exact (closed_prefix_append_iff hword).mp hp

theorem scan_append_closed (hg : g ∈ table) {start back : Text}
    (h : Keyed (start ++ ['}'] ++ back)) :
    g.scan (start ++ ['}'] ++ back) = g.scan (start ++ ['}']) ++ g.scan back := by
  have hkeys : g.keysFrom 0 (start ++ ['}'] ++ back) =
      g.keysFrom 0 (start ++ ['}']) ++ g.keysFrom 0 back := by
    refine keysFrom_append_of_key? (Nat.zero_le _) fun part hne hp => ?_
    obtain ⟨later, rfl, front, rfl⟩ := (List.suffix_concat_iff.mp hp).resolve_left hne
    exact key?_append_closed hg (h.of_infix ⟨front, [], by simp⟩)
  rw [scan, hkeys, List.filter_append, List.map_append, scan, scan]

end Grammar

namespace Substitution
variable {bindings : List (Text × Text)}

def ClosedOnce (bindings : List (Text × Text)) : Prop :=
  ∀ binding ∈ bindings, ∃ word, '}' ∉ word ∧ binding.1 = word ++ ['}']

theorem longestAt_append_closed (hc : ClosedOnce bindings) (start back : Text) :
    longestAt bindings (start ++ ['}'] ++ back) = longestAt bindings (start ++ ['}']) := by
  apply longestAt_congr
  intro binding hm
  obtain ⟨word, hword, he⟩ := hc binding hm
  rw [Bool.eq_iff_iff, applies_iff, applies_iff, he, closed_prefix_append_iff hword]

theorem sweep_append_closed (hc : ClosedOnce bindings) (start back : Text) :
    sweep bindings (start ++ ['}'] ++ back) =
      sweep bindings (start ++ ['}']) ++ sweep bindings back := by
  refine sweepFrom_append_of_longestAt (Nat.zero_le _) fun part hne hp => ?_
  obtain ⟨later, rfl, _⟩ := (List.suffix_concat_iff.mp hp).resolve_left hne
  exact longestAt_append_closed hc later back

end Substitution

namespace Services
variable {σ : Type} (services : Services σ) (context : Context) (text : Text) (state : σ)

/-- The literals that a pass replaces end at their first closing brace. -/
private theorem closedOnce_afterParts (h : Keyed text) :
    Substitution.ClosedOnce
      (services.afterParts context text state Namespace.all).substitution.effective := by
  rintro ⟨literal, value⟩ hm
  obtain ⟨_, _, token, ht, rfl, _⟩ :=
    (services.get?_afterParts context text state _).mp (Substitution.mem_effective.mp hm).1
  obtain ⟨⟨g, hg, hk, _, he⟩, _, hl⟩ :=
    readable_of_mem_scan (services.mem_scan_of_mem_resolved context text ht)
  rw [he] at hl ⊢
  exact ⟨g.opening ++ token.key, List.not_mem_append (Grammar.brace_not_mem_opening hg)
    (Grammar.brace_not_mem_of_keyed hg h hk hl), rfl⟩

/-- The key of a token has a closing brace at its front at most, and then only behind an opening for
keys of a line that this brace follows at once. Where no such opening stands in a text the literals
of its tokens end at their first closing brace; scans with each spelling, and the replacements of a
pass, fall apart behind every closing brace; and what stands behind one, up to the next dollar sign,
is kept. -/
theorem closed_of_keyed :
    (∀ ns, ∀ token ∈ scan text ns, ∃ g ∈ Grammar.table, g.ns = ns ∧ token = g.token token.key ∧
      '}' ∉ token.key.tail ∧
      ('}' ∈ token.key → g.keys = .line ∧ g.opening ++ ['}'] <+: token.literal)) ∧
    (Keyed text →
      (∀ ns, ∀ token ∈ scan text ns, '}' ∉ token.key) ∧
      ∀ start back, text = start ++ ['}'] ++ back →
        (∀ g ∈ Grammar.table, g.scan text = g.scan (start ++ ['}']) ++ g.scan back) ∧
        let replaced := Substitution.sweep
          (services.afterParts context text state Namespace.all).substitution.effective
        (services.finished context text state).result =
            replaced (start ++ ['}']) ++ replaced back ∧
          ∀ between rest, back = between ++ rest → '$' ∉ between →
            replaced back = between ++ replaced rest) := by
  constructor
  · intro ns token ht
    obtain ⟨⟨g, hg, hk, _, he⟩, hns, _⟩ := readable_of_mem_scan ht
    refine ⟨g, hg, ?_, he, Grammar.brace_not_mem_tail hk, fun hb => ?_⟩
    · rw [← hns, he]
      rfl
    · rw [he]
      exact Grammar.of_brace_mem hk hb
  · intro hkeyed
    constructor
    · intro ns token ht
      obtain ⟨⟨g, hg, hk, _, he⟩, _, hl⟩ := readable_of_mem_scan ht
      rw [he] at hl
      exact Grammar.brace_not_mem_of_keyed hg hkeyed hk hl
    · rintro start back rfl
      refine ⟨fun g hg => Grammar.scan_append_closed hg hkeyed, ?_, ?_⟩
      · rw [finished, Pass.finish, Substitution.result_apply, input_afterParts]
        exact Substitution.sweep_append_closed
          (services.closedOnce_afterParts context _ state hkeyed) start back
      · rintro between rest rfl hno
        exact Substitution.sweep_append
          (services.literalsOnly_afterParts context _ state Namespace.all) hno rest

/-- Two placeholders with a text between them, which stays. -/
theorem closed_of_keyed_between :
    let text := "$\x7benv:A\x7d/lib/$\x7benv:B\x7d".toList
    Keyed text ∧ (∀ token ∈ scan text .environment, '}' ∉ token.key) ∧
      (still.finished { vars := .bare } text ()).result = "/lib/".toList := by
  intro text
  have hkeyed : Keyed text := by decide +kernel
  obtain ⟨_, hclosed⟩ := still.closed_of_keyed { vars := .bare } text ()
  obtain ⟨hkeys, hsplit⟩ := hclosed hkeyed
  obtain ⟨_, hresult, hkept⟩ :=
    hsplit "$\x7benv:A".toList "/lib/$\x7benv:B\x7d".toList (by decide)
  rw [hkept "/lib/".toList "$\x7benv:B\x7d".toList (by decide) (by decide)] at hresult
  refine ⟨hkeyed, hkeys .environment, hresult.trans ?_⟩
  decide +kernel

/-- An opening without a key: its placeholder ends at the brace of the next one, whose key it takes
along, and when it is replaced the text between them is gone. -/
theorem swallows_behind_emptyKey :
    let text := "$\x7benv:\x7d/lib/$\x7benv:A\x7d".toList
    scan text .environment = [⟨text, .environment, "\x7d/lib/$\x7benv:A".toList⟩] ∧
      ((Engine.standard still).expand { vars := .bare } text ()).1.outcome.result = [] ∧
      ¬ ∀ g ∈ Grammar.table, ∀ text, ∀ token ∈ g.scan text, '}' ∉ token.key := by
  intro text
  refine ⟨by decide, by decide +kernel, fun h => ?_⟩
  exact h ⟨.environment, "$\x7benv:".toList, .line⟩ (by decide) text
    ⟨text, .environment, "\x7d/lib/$\x7benv:A".toList⟩ (by decide) (by decide)

end Services
end Placeholders
