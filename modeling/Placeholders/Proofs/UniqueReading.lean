import Mathlib.Data.List.Basic
import Mathlib.Data.List.TakeWhile
import Placeholders.Grammar

/-! Unique reading of placeholders. A literal tells its spelling and its key, and at one place of a
text at most one spelling of the table can be read. -/

namespace Placeholders

/-- The keys that a class can read. A key of a line may itself begin with a closing brace. -/
def KeyClass.Admits : KeyClass → Text → Prop
  | .word, key => key ≠ [] ∧ ∀ c ∈ key, Text.isWord c = true
  | .line, [] => False
  | .line, c :: key => c ≠ '\n' ∧ ∀ d ∈ key, d ≠ '}' ∧ d ≠ '\n'

instance (keys : KeyClass) : DecidablePred keys.Admits := fun key =>
  match keys, key with
  | .word, key =>
    decidable_of_iff (key ≠ [] ∧ key.all Text.isWord = true) (by simp [KeyClass.Admits])
  | .line, [] => .isFalse id
  | .line, c :: key =>
    decidable_of_iff (c ≠ '\n' ∧ key.all (fun d => d ≠ '}' && d ≠ '\n') = true)
      (by simp [KeyClass.Admits])

/-- What ends with an element and lies at the front of two lists together lies at the front of the
first, or it ends in the second. -/
theorem concat_prefix_append_cases {α : Type} {word front back : List α} {last : α}
    (h : word ++ [last] <+: front ++ back) :
    word ++ [last] <+: front ∨ ∃ before, word = front ++ before ∧ before ++ [last] <+: back := by
  rcases List.prefix_or_prefix_of_prefix h (List.prefix_append front back) with hf | ⟨rest, hr⟩
  · exact .inl hf
  · have hrest : rest <+: back := by
      rw [← hr] at h
      exact (List.prefix_append_right_inj front).mp h
    rcases List.eq_nil_or_concat' rest with rfl | ⟨before, other, rfl⟩
    · exact .inl (by simp [← hr])
    · rw [← List.append_assoc] at hr
      obtain ⟨hword, hother⟩ := List.append_inj' hr rfl
      exact .inr ⟨before, hword.symm, List.singleton_inj.mp hother ▸ hrest⟩

namespace Grammar

def plain : Grammar := ⟨.variable, "$\x7b".toList, .word⟩

private theorem takeWhile_word {key rest : Text} (h : ∀ c ∈ key, Text.isWord c = true) :
    (key ++ '}' :: rest).takeWhile Text.isWord = key := by
  rw [List.takeWhile_append_of_pos h, List.takeWhile_cons_of_neg (by simp [Text.isWord_brace]),
    List.append_nil]

private theorem dropWhile_word {key rest : Text} (h : ∀ c ∈ key, Text.isWord c = true) :
    (key ++ '}' :: rest).dropWhile Text.isWord = '}' :: rest := by
  rw [List.dropWhile_append_of_pos h, List.dropWhile_cons_of_neg (by simp [Text.isWord_brace])]

private theorem word_key?_iff {text key : Text} :
    KeyClass.key? .word text = some key ↔
      KeyClass.word.Admits key ∧ ∃ rest, text = key ++ '}' :: rest := by
  constructor
  · intro h
    simp only [KeyClass.key?] at h
    split at h
    · cases h
    · next _ _ rest hd hne =>
      cases h
      refine ⟨⟨hne, fun c hc => List.mem_takeWhile_imp hc⟩, rest, ?_⟩
      rw [← hd, List.takeWhile_append_dropWhile]
    · cases h
  · rintro ⟨⟨hne, hw⟩, rest, rfl⟩
    simp only [KeyClass.key?, takeWhile_word hw, dropWhile_word hw]

private theorem line_key?_iff {text key : Text} :
    KeyClass.key? .line text = some key ↔
      KeyClass.line.Admits key ∧ ∃ rest, text = key ++ '}' :: rest := by
  cases text with
  | nil => simp [KeyClass.key?]
  | cons c text =>
    simp only [KeyClass.key?]
    constructor
    · intro h
      split at h
      · cases h
      · next hc =>
        obtain ⟨key, hk, rfl⟩ := Option.map_eq_some_iff.mp h
        obtain ⟨hkey, rest, rfl⟩ := upToBrace_eq_some_iff.mp hk
        exact ⟨⟨hc, hkey⟩, rest, rfl⟩
    · rintro ⟨hkey, rest, ht⟩
      cases key with
      | nil => exact hkey.elim
      | cons d key =>
        obtain ⟨rfl, htail⟩ := List.cons.inj ht
        rw [if_neg hkey.1, upToBrace_eq_some_iff.mpr ⟨hkey.2, rest, htail⟩]
        rfl

/-- A key is read where an admitted key stands before a closing brace. -/
theorem KeyClass.key?_eq_some_iff {keys : KeyClass} {text key : Text} :
    KeyClass.key? keys text = some key ↔ keys.Admits key ∧ ∃ rest, text = key ++ '}' :: rest := by
  cases keys
  · exact word_key?_iff
  · exact line_key?_iff

/-- A spelling is read exactly where one of its literals stands. -/
theorem key?_eq_some_iff {g : Grammar} {text key : Text} :
    g.key? text = some key ↔ g.keys.Admits key ∧ g.literal key <+: text := by
  simp only [key?, Option.bind_eq_some_iff, Text.dropStart?_eq_some_iff, KeyClass.key?_eq_some_iff,
    literal]
  constructor
  · rintro ⟨_, rfl, hk, rest, rfl⟩
    exact ⟨hk, rest, by simp⟩
  · rintro ⟨hk, rest, rfl⟩
    exact ⟨key ++ '}' :: rest, by simp, hk, rest, rfl⟩

theorem key?_literal_append {g : Grammar} {key : Text} (h : g.keys.Admits key) (rest : Text) :
    g.key? (g.literal key ++ rest) = some key :=
  key?_eq_some_iff.mpr ⟨h, List.prefix_append _ _⟩

theorem plain_mem_table : plain ∈ table := List.mem_cons_self

theorem literal_dollarKey : plain.literal dollarKey = dollarLiteral := rfl

theorem admits_dollarKey : plain.keys.Admits dollarKey := by decide

/-- Openings begin with a dollar sign and have no other. -/
theorem opening_eq {g : Grammar} (hg : g ∈ table) : ∃ tail, g.opening = '$' :: tail ∧ '$' ∉ tail := by
  simp only [table, List.mem_cons, List.not_mem_nil, or_false] at hg
  rcases hg with rfl | rfl | rfl | rfl | rfl | rfl | rfl | rfl <;>
    exact ⟨_, rfl, by decide⟩

/-- Only the environment has more than one spelling. -/
theorem eq_of_ns_eq {g h : Grammar} (hg : g ∈ table) (hh : h ∈ table) (hns : g.ns = h.ns)
    (hne : g.ns ≠ .environment) : g = h := by
  have hall : ∀ g ∈ table, ∀ h ∈ table, g.ns = h.ns → g.ns ≠ .environment → g = h := by decide
  exact hall g hg h hh hns hne

/-- Only the plain spelling opens as another one does; no other opening begins a second one. -/
private theorem opening_prefix_free : ∀ g ∈ table, ∀ h ∈ table, g.opening <+: h.opening →
    g = h ∨ g = plain := by
  decide

/-- What stands behind another opening is no word that a brace follows. -/
private theorem plain_key?_opening_append {g : Grammar} (hg : g ∈ table) (hp : g ≠ plain)
    (rest : Text) : plain.key? (g.opening ++ rest) = none := by
  simp only [table, List.mem_cons, List.not_mem_nil, or_false] at hg
  rcases hg with rfl | rfl | rfl | rfl | rfl | rfl | rfl | rfl
  · exact absurd rfl hp
  all_goals simp [key?, plain, Text.dropStart?, KeyClass.key?, List.takeWhile, List.dropWhile,
    Text.isWord]

/-- At one place at most one spelling can be read, and with one key only. -/
theorem eq_of_key?_eq_some {g h : Grammar} (hg : g ∈ table) (hh : h ∈ table) {text k l : Text}
    (hk : g.key? text = some k) (hl : h.key? text = some l) : g = h ∧ k = l := by
  have ho (e : Grammar) (m : Text) (hm : e.key? text = some m) : e.opening <+: text := by
    refine List.IsPrefix.trans ?_ (key?_eq_some_iff.mp hm).2
    simp [literal, List.append_assoc]
  have hplain (e : Grammar) (he : e ∈ table) (hpe : e ≠ plain) (m : Text)
      (hm : e.key? text = some m) : plain.key? text = none := by
    obtain ⟨rest, rfl⟩ := ho e m hm
    exact plain_key?_opening_append he hpe rest
  have heq : g = h := by
    by_cases hgp : g = plain
    · by_contra hne
      rw [hgp, hplain h hh (fun hp => hne (hgp.trans hp.symm)) l hl] at hk
      cases hk
    · by_cases hhp : h = plain
      · rw [hhp, hplain g hg hgp k hk] at hl
        cases hl
      · rcases List.prefix_or_prefix_of_prefix (ho g k hk) (ho h l hl) with hp | hp
        · exact (opening_prefix_free g hg h hh hp).resolve_right hgp
        · exact ((opening_prefix_free h hh g hg hp).resolve_right hhp).symm
  subst heq
  exact ⟨rfl, Option.some.inj (hk.symm.trans hl)⟩

/-- A literal tells its spelling and its key. -/
theorem literal_inj {g h : Grammar} (hg : g ∈ table) (hh : h ∈ table) {k l : Text}
    (hk : g.keys.Admits k) (hl : h.keys.Admits l) (he : g.literal k = h.literal l) :
    g = h ∧ k = l := by
  refine eq_of_key?_eq_some hg hh (?_ : g.key? (g.literal k) = some k) ?_
  · simpa using key?_literal_append hk []
  · rw [he]
    simpa using key?_literal_append hl []

/-- Spellings are read at dollar signs only. -/
theorem key?_cons_of_ne {g : Grammar} (hg : g ∈ table) {c : Char} (hc : c ≠ '$') (text : Text) :
    g.key? (c :: text) = none := by
  obtain ⟨tail, ho, _⟩ := opening_eq hg
  rw [Option.eq_none_iff_forall_ne_some]
  intro key hk
  obtain ⟨rest, hr⟩ := (key?_eq_some_iff.mp hk).2
  simp only [literal, ho, List.cons_append] at hr
  exact hc (List.cons.inj hr).1.symm

theorem keysFrom_append {g : Grammar} (hg : g ∈ table) {text : Text} (h : '$' ∉ text)
    (rest : Text) : g.keysFrom 0 (text ++ rest) = g.keysFrom 0 rest := by
  induction text with
  | nil => rfl
  | cons c text ih =>
    obtain ⟨hc, ht⟩ := not_or.mp (fun hm => h (List.mem_cons.mpr hm))
    rw [List.cons_append, keysFrom_of_key?_eq_none (key?_cons_of_ne hg (Ne.symm hc) _), ih ht]

theorem keysFrom_literal_append {g : Grammar} {key : Text} (h : g.keys.Admits key) (rest : Text) :
    g.keysFrom 0 (g.literal key ++ rest) = key :: g.keysFrom 0 rest := by
  rw [keysFrom_of_key?_eq_some (key?_literal_append h rest), List.drop_left]

/-- A literal whose key has no dollar sign is passed over by every other spelling. -/
theorem keysFrom_literal_append_of_ne {g h : Grammar} (hg : g ∈ table) (hh : h ∈ table)
    (hne : g ≠ h) {key : Text} (hk : h.keys.Admits key) (hd : '$' ∉ key) (rest : Text) :
    g.keysFrom 0 (h.literal key ++ rest) = g.keysFrom 0 rest := by
  obtain ⟨tail, ho, htail⟩ := opening_eq hh
  have hlit : h.literal key ++ rest = '$' :: ((tail ++ key ++ ['}']) ++ rest) := by
    simp [literal, ho]
  have hnone : g.key? (h.literal key ++ rest) = none := by
    rw [Option.eq_none_iff_forall_ne_some]
    intro l hl
    exact hne (eq_of_key?_eq_some hg hh hl (key?_literal_append hk rest)).1
  rw [hlit] at hnone ⊢
  rw [keysFrom_of_key?_eq_none hnone, keysFrom_append hg]
  simp [htail, hd]

end Grammar
end Placeholders
