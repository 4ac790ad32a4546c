import Placeholders.Proofs.RecordedReplacements

/-! Templates: texts put together from plain text, escapes and references. A scan of a template
finds its references and nothing else, and a sweep over it acts on each piece by itself. -/

namespace Placeholders

/-- A reference of a template. No dollar sign in its key means that nothing else can be read within
its literal. -/
structure Reference where
  grammar : Grammar
  key : Text
  listed : grammar ∈ Grammar.table
  admitted : grammar.keys.Admits key
  undollared : '$' ∉ key
  kept : grammar.keeps key = true

namespace Reference

def token (r : Reference) : Token := r.grammar.token r.key

def literal (r : Reference) : Text := r.grammar.literal r.key

def node (r : Reference) : Namespace × Text := (r.grammar.ns, r.key)

theorem readable (r : Reference) : r.token.Readable :=
  ⟨r.grammar, r.listed, r.admitted, r.kept, rfl⟩

theorem node_eq_of_token_eq {r s : Reference} (h : r.token = s.token) : r.node = s.node :=
  Prod.ext (congrArg Token.ns h) (congrArg Token.key h)

/-- Only environment references can be spelled in more than one way. -/
theorem literal_eq_of_node_eq {r s : Reference} (h : r.node = s.node)
    (hne : r.grammar.ns ≠ .environment) : r.literal = s.literal := by
  obtain ⟨hns, hkey⟩ := Prod.mk.inj h
  exact congrArg Token.literal (r.readable.eq_of_key_eq s.readable hns hne hkey)

private theorem undollared_of_word {key : Text} (h : KeyClass.word.Admits key) : '$' ∉ key :=
  fun hm => absurd (h.2 '$' hm) (by simp [Text.isWord_dollar])

def plain (key : Text) (h : KeyClass.word.Admits key) (hne : key ≠ Grammar.dollarKey) :
    Reference where
  grammar := Grammar.plain
  key := key
  listed := Grammar.plain_mem_table
  admitted := h
  undollared := undollared_of_word h
  kept := by simp [Grammar.keeps, hne]

/-- Characters other than dollar signs, closing braces and line breaks, in any other spelling. -/
def line (g : Grammar) (hg : g ∈ Grammar.table) (hl : g.keys = .line) (key : Text) (hne : key ≠ [])
    (h : ∀ c ∈ key, c ≠ '$' ∧ c ≠ '}' ∧ c ≠ '\n') : Reference where
  grammar := g
  key := key
  listed := hg
  admitted := by
    cases key with
    | nil => exact absurd rfl hne
    | cons c key =>
      rw [hl]
      exact ⟨(h c List.mem_cons_self).2.2, fun d hd => (h d (List.mem_cons_of_mem c hd)).2⟩
  undollared := fun hm => (h '$' hm).1 rfl
  kept := by
    have hns : g.ns ≠ .variable := by
      intro hv
      have hword : ∀ e ∈ Grammar.table, e.ns = .variable → e.keys = .word := by decide
      rw [hword g hg hv] at hl
      cases hl
    simp [Grammar.keeps, hns]

end Reference

inductive Piece where
  | verbatim (text : Text) (h : '$' ∉ text)
  | dollar
  | reference (r : Reference)

abbrev Template := List Piece

namespace Piece

def render : Piece → Text
  | .verbatim text _ => text
  | .dollar => Grammar.dollarLiteral
  | .reference r => r.literal

def shown : Piece → Text
  | .verbatim text _ => text
  | .dollar => ['$']
  | .reference r => r.literal

def reference? : Piece → Option Reference
  | .reference r => some r
  | _ => none

def swept (value? : Text → Option Text) : Piece → Text
  | .verbatim text _ => text
  | .dollar => (value? Grammar.dollarLiteral).getD Grammar.dollarLiteral
  | .reference r => (value? r.literal).getD r.literal

end Piece

namespace Template

def render (template : Template) : Text := template.flatMap Piece.render

def shown (template : Template) : Text := template.flatMap Piece.shown

def references (template : Template) : List Reference := template.filterMap Piece.reference?

@[simp] theorem render_nil : render [] = [] := rfl

@[simp] theorem render_cons (piece : Piece) (template : Template) :
    render (piece :: template) = piece.render ++ render template := rfl

theorem render_reference (r : Reference) : render [.reference r] = r.literal :=
  List.append_nil r.literal

@[simp] theorem references_nil : references [] = [] := rfl

@[simp] theorem references_append (first second : Template) :
    references (first ++ second) = references first ++ references second :=
  List.filterMap_append

@[simp] theorem references_reference_cons (r : Reference) (template : Template) :
    references (.reference r :: template) = r :: references template := rfl

end Template

open Template

/-- A scan of a template finds its references of the spelling. -/
theorem Grammar.scan_render {g : Grammar} (hg : g ∈ Grammar.table) (template : Template) :
    g.scan (render template) =
      ((references template).filter fun r => r.grammar = g).map Reference.token := by
  induction template with
  | nil => simp
  | cons piece template ih =>
    cases piece with
    | verbatim text h => exact (Grammar.scan_append hg h _).trans ih
    | dollar =>
      rw [render_cons, Piece.render, ← Grammar.literal_dollarKey]
      by_cases he : g = Grammar.plain
      · subst he
        rw [Grammar.scan_literal_append Grammar.admits_dollarKey, ih]
        rfl
      · rw [Grammar.scan_literal_append_of_ne hg Grammar.plain_mem_table he Grammar.admits_dollarKey
          (by decide), ih]
        rfl
    | reference r =>
      rw [render_cons, Piece.render, Reference.literal, references_reference_cons]
      by_cases he : r.grammar = g
      · subst he
        rw [Grammar.scan_literal_append r.admitted, if_pos r.kept, ih, List.filter_cons_of_pos (by simp)]
        rfl
      · rw [Grammar.scan_literal_append_of_ne hg r.listed (Ne.symm he) r.admitted r.undollared, ih,
          List.filter_cons_of_neg (by simpa using he)]

theorem mem_scan_render {template : Template} {ns : Namespace} {token : Token} :
    token ∈ scan (render template) ns ↔
      ∃ r ∈ references template, r.grammar.ns = ns ∧ r.token = token := by
  rw [mem_scan]
  constructor
  · rintro ⟨g, hg, hns, ht⟩
    rw [Grammar.scan_render hg] at ht
    obtain ⟨r, hr, rfl⟩ := List.mem_map.mp ht
    obtain ⟨hr, he⟩ := List.mem_filter.mp hr
    exact ⟨r, hr, by rw [of_decide_eq_true he, hns], rfl⟩
  · rintro ⟨r, hr, hns, rfl⟩
    refine ⟨r.grammar, r.listed, hns, ?_⟩
    rw [Grammar.scan_render r.listed]
    exact List.mem_map_of_mem (List.mem_filter.mpr ⟨hr, by simp⟩)

/-- Templates of one text have the same references. -/
theorem Template.exists_token_eq {first second : Template} (h : render first = render second)
    {r : Reference} (hr : r ∈ references first) : ∃ s ∈ references second, s.token = r.token := by
  have ht := mem_scan_render.mpr ⟨r, hr, rfl, rfl⟩
  rw [h] at ht
  obtain ⟨s, hs, _, he⟩ := mem_scan_render.mp ht
  exact ⟨s, hs, he⟩

namespace Substitution

/-- A sweep over a template acts on each piece by itself. -/
theorem sweep_render {bindings : List (Text × Text)} (hb : LiteralsOnly bindings)
    (hn : (bindings.map Prod.fst).Nodup) (template : Template) :
    sweep bindings (render template) = template.flatMap (Piece.swept fun literal => bindings.lookup literal) := by
  induction template with
  | nil => rfl
  | cons piece template ih =>
    rw [render_cons, List.flatMap_cons, ← ih]
    cases piece with
    | verbatim text h => exact sweep_append hb h _
    | dollar =>
      exact sweep_literal_append hb hn Grammar.plain_mem_table Grammar.admits_dollarKey (by decide) _
    | reference r => exact sweep_literal_append hb hn r.listed r.admitted r.undollared _

/-- Turning escapes into dollar signs leaves everything else of a template. -/
theorem unescape_render (template : Template) : unescape (render template) = shown template := by
  rw [unescape, sweep_render (literalsOnly_escape _) (by simp)]
  apply List.flatMap_congr
  intro piece _
  cases piece with
  | verbatim text h => rfl
  | dollar => rfl
  | reference r =>
    have hne : r.literal ≠ Grammar.dollarLiteral := r.readable.literal_ne_dollarLiteral
    simp [Piece.swept, Piece.shown, List.lookup_cons, beq_eq_false_iff_ne.mpr hne]

end Substitution

end Placeholders
