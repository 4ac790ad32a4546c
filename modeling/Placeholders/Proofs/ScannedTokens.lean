import Placeholders.Proofs.UniqueReading

/-! The tokens that a scan returns. Each is a literal of the table that stands in the text, so its
literal determines it, and a scan of the literal alone finds the token again. -/

namespace Placeholders

/-- A token that some text contains: a literal of the table, and not the escape. -/
def Token.Readable (token : Token) : Prop :=
  ∃ g ∈ Grammar.table, g.keys.Admits token.key ∧ g.keeps token.key = true ∧
    token = g.token token.key

namespace Grammar

/-- Each key found is one that the spelling admits, and its literal stands in the text. -/
theorem of_mem_keysFrom {g : Grammar} {key text : Text} (skip : Nat)
    (h : key ∈ g.keysFrom skip text) : g.keys.Admits key ∧ g.literal key <:+: text := by
  induction text generalizing skip with
  | nil => simp at h
  | cons c text ih =>
    have later (skip : Nat) (h : key ∈ g.keysFrom skip text) :
        g.keys.Admits key ∧ g.literal key <:+: c :: text :=
      ⟨(ih skip h).1, (ih skip h).2.trans (List.suffix_cons c text).isInfix⟩
    cases skip with
    | succ skip => exact later skip h
    | zero =>
      rw [keysFrom] at h
      split at h
      · next k hk =>
        rcases List.mem_cons.mp h with rfl | h
        · exact ⟨(key?_eq_some_iff.mp hk).1, (key?_eq_some_iff.mp hk).2.isInfix⟩
        · exact later _ h
      · exact later 0 h

/-- Where nothing that is read in a text depends on what comes behind it, the two are read one after
the other. -/
theorem keysFrom_append_of_key? {g : Grammar} {text back : Text} {skip : Nat}
    (hs : skip ≤ text.length)
    (h : ∀ part, part ≠ [] → part <:+ text → g.key? (part ++ back) = g.key? part) :
    g.keysFrom skip (text ++ back) = g.keysFrom skip text ++ g.keysFrom 0 back := by
  induction text generalizing skip with
  | nil =>
    obtain rfl : skip = 0 := Nat.le_zero.mp hs
    rw [keysFrom_nil, List.nil_append, List.nil_append]
  | cons c text ih =>
    have hrest (part : Text) (hne : part ≠ []) (hp : part <:+ text) :=
      h part hne (hp.trans (List.suffix_cons c text))
    cases skip with
    | succ skip => exact ih (Nat.le_of_succ_le_succ hs) hrest
    | zero =>
      rw [List.cons_append, keysFrom, ← List.cons_append,
        h _ (List.cons_ne_nil c text) List.suffix_rfl, keysFrom]
      cases hk : g.key? (c :: text) with
      | none => exact ih (Nat.zero_le _) hrest
      | some key =>
        have hlen := (key?_eq_some_iff.mp hk).2.length_le
        rw [List.length_cons] at hlen
        exact congrArg (key :: ·) (ih (by omega) hrest)

theorem mem_scan {g : Grammar} {text : Text} {token : Token} :
    token ∈ g.scan text ↔
      ∃ key ∈ g.keysFrom 0 text, g.keeps key = true ∧ g.token key = token := by
  simp [scan, and_assoc]

@[simp] theorem scan_nil (g : Grammar) : g.scan [] = [] := by
  simp [scan]

theorem scan_append {g : Grammar} (hg : g ∈ table) {text : Text} (h : '$' ∉ text) (rest : Text) :
    g.scan (text ++ rest) = g.scan rest := by
  rw [scan, keysFrom_append hg h, scan]

/-- A literal at the front contributes its own token, unless it is the escape. -/
theorem scan_literal_append {g : Grammar} {key : Text} (h : g.keys.Admits key) (rest : Text) :
    g.scan (g.literal key ++ rest) = (if g.keeps key then [g.token key] else []) ++ g.scan rest := by
  rw [scan, keysFrom_literal_append h, List.filter_cons, scan]
  split <;> rfl

theorem scan_literal_append_of_ne {g h : Grammar} (hg : g ∈ table) (hh : h ∈ table) (hne : g ≠ h)
    {key : Text} (hk : h.keys.Admits key) (hd : '$' ∉ key) (rest : Text) :
    g.scan (h.literal key ++ rest) = g.scan rest := by
  rw [scan, keysFrom_literal_append_of_ne hg hh hne hk hd, scan]

end Grammar

theorem mem_scan {text : Text} {ns : Namespace} {token : Token} :
    token ∈ scan text ns ↔ ∃ g ∈ Grammar.table, g.ns = ns ∧ token ∈ g.scan text := by
  simp [scan, Grammar.ofNamespace, and_assoc]

/-- A scanned token is readable, belongs to the namespace asked for and stands in the text. -/
theorem readable_of_mem_scan {text : Text} {ns : Namespace} {token : Token}
    (h : token ∈ scan text ns) : token.Readable ∧ token.ns = ns ∧ token.literal <:+: text := by
  obtain ⟨g, hg, rfl, hs⟩ := mem_scan.mp h
  obtain ⟨key, hk, hkeep, rfl⟩ := Grammar.mem_scan.mp hs
  obtain ⟨ha, hi⟩ := Grammar.of_mem_keysFrom 0 hk
  exact ⟨⟨g, hg, ha, hkeep, rfl⟩, rfl, hi⟩

theorem Namespace.mem_all (ns : Namespace) : ns ∈ all := by cases ns <;> decide

theorem mem_scanAll {text : Text} {token : Token} :
    token ∈ scanAll text ↔ token ∈ scan text token.ns := by
  simp only [scanAll, List.mem_flatMap]
  constructor
  · rintro ⟨ns, _, h⟩
    rwa [(readable_of_mem_scan h).2.1]
  · intro h
    exact ⟨token.ns, token.ns.mem_all, h⟩

namespace Token.Readable

theorem eq_of_literal_eq {s t : Token} (hs : s.Readable) (ht : t.Readable)
    (h : s.literal = t.literal) : s = t := by
  obtain ⟨g, hg, hga, _, hse⟩ := hs
  obtain ⟨e, he, hea, _, hte⟩ := ht
  rw [hse, hte] at h
  obtain ⟨rfl, hk⟩ := Grammar.literal_inj hg he hga hea h
  rw [hse, hte, hk]

/-- Outside the environment the key tells the token. -/
theorem eq_of_key_eq {s t : Token} (hs : s.Readable) (ht : t.Readable) (hns : s.ns = t.ns)
    (hne : s.ns ≠ .environment) (h : s.key = t.key) : s = t := by
  obtain ⟨g, hg, _, _, hse⟩ := hs
  obtain ⟨e, he, _, _, hte⟩ := ht
  rw [hse] at hne
  rw [hse, hte] at hns
  obtain rfl := Grammar.eq_of_ns_eq hg he hns hne
  rw [hse, hte, h]

/-- A scan of the literal of a token finds the token. -/
theorem mem_scan_literal {token : Token} (h : token.Readable) :
    token ∈ scan token.literal token.ns := by
  obtain ⟨g, hg, ha, hkeep, he⟩ := h
  rw [he]
  refine mem_scan.mpr ⟨g, hg, rfl, ?_⟩
  have hs := Grammar.scan_literal_append ha []
  rw [List.append_nil, if_pos hkeep] at hs
  simp [Grammar.token, hs]

theorem literal_ne_nil {token : Token} (h : token.Readable) : token.literal ≠ [] := by
  obtain ⟨g, _, _, _, he⟩ := h
  rw [he]
  simp [Grammar.token, Grammar.literal]

/-- The escape is not the literal of a token. -/
theorem literal_ne_dollarLiteral {token : Token} (h : token.Readable) :
    token.literal ≠ Grammar.dollarLiteral := by
  obtain ⟨g, hg, ha, hkeep, he⟩ := h
  intro hl
  rw [he] at hl
  obtain ⟨rfl, hk⟩ :=
    Grammar.literal_inj hg Grammar.plain_mem_table ha Grammar.admits_dollarKey hl
  rw [hk] at hkeep
  exact absurd hkeep (by decide)

end Token.Readable

/-- A literal tells the token, whatever the text and the namespace of the scan. -/
theorem eq_of_mem_scan {text other : Text} {ns ms : Namespace} {s t : Token}
    (hs : s ∈ scan text ns) (ht : t ∈ scan other ms) (h : s.literal = t.literal) : s = t :=
  (readable_of_mem_scan hs).1.eq_of_literal_eq (readable_of_mem_scan ht).1 h

theorem ns_eq_of_mem_scan {text other : Text} {ns ms : Namespace} {s t : Token}
    (hs : s ∈ scan text ns) (ht : t ∈ scan other ms) (h : s.literal = t.literal) : ns = ms := by
  rw [← (readable_of_mem_scan hs).2.1, eq_of_mem_scan hs ht h, (readable_of_mem_scan ht).2.1]

end Placeholders
