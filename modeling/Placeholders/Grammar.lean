import Placeholders.Token
import Placeholders.Text.WordChar

/-! The spellings of placeholders and the scan for them. A spelling is an opening, a key and a
closing brace. A key of word characters ends where the word ends; any other key is the shortest
one, of at least one character and within its line, that a brace follows. -/

namespace Placeholders

inductive KeyClass where
  | word
  /-- One or more characters of a line, as few as possible. -/
  | line
  deriving DecidableEq, Repr

/-- A spelling of placeholders. -/
structure Grammar where
  ns : Namespace
  opening : Text
  keys : KeyClass
  deriving DecidableEq, Repr

namespace Grammar

/-- The spellings in the order in which they are tried. -/
def table : List Grammar :=
  [⟨.variable, "$\x7b".toList, .word⟩,
   ⟨.environment, "$\x7benv:".toList, .line⟩,
   ⟨.environment, "$\x7benv.".toList, .line⟩,
   ⟨.environment, "$env\x7b".toList, .line⟩,
   ⟨.parentEnvironment, "$penv\x7b".toList, .line⟩,
   ⟨.workspaceFolder, "$\x7bworkspaceFolder:".toList, .line⟩,
   ⟨.variant, "$\x7bvariant:".toList, .line⟩,
   ⟨.command, "$\x7bcommand:".toList, .line⟩]

def ofNamespace (ns : Namespace) : List Grammar := table.filter fun g => g.ns = ns

/-- Key of the escape for a dollar sign, which is no variable. -/
def dollarKey : Text := "dollar".toList

def dollarLiteral : Text := "$\x7bdollar\x7d".toList

/-- The characters before the first closing brace, if one comes before the line ends. -/
def upToBrace : Text → Option Text
  | [] => none
  | c :: text =>
    if c = '}' then some []
    else if c = '\n' then none
    else (upToBrace text).map (c :: ·)

def KeyClass.key? : KeyClass → Text → Option Text
  | .word, text =>
    match text.takeWhile Text.isWord, text.dropWhile Text.isWord with
    | [], _ => none
    | key, '}' :: _ => some key
    | _, _ => none
  | .line, [] => none
  | .line, c :: text => if c = '\n' then none else (upToBrace text).map (c :: ·)

def key? (g : Grammar) (text : Text) : Option Text :=
  (Text.dropStart? g.opening text).bind (KeyClass.key? g.keys)

def literal (g : Grammar) (key : Text) : Text := g.opening ++ key ++ ['}']

/-- Keys found from left to right; the first `skip` characters belong to an earlier match. -/
def keysFrom (g : Grammar) : Nat → Text → List Text
  | _, [] => []
  | skip + 1, _ :: text => keysFrom g skip text
  | 0, c :: text =>
    match g.key? (c :: text) with
    | some key => key :: keysFrom g ((g.literal key).length - 1) text
    | none => keysFrom g 0 text

/-- Whether a key of this spelling is kept; the escape for a dollar sign is not. -/
def keeps (g : Grammar) (key : Text) : Bool := !(g.ns == .variable && key == dollarKey)

def token (g : Grammar) (key : Text) : Token := ⟨g.literal key, g.ns, key⟩

def scan (g : Grammar) (text : Text) : List Token :=
  ((g.keysFrom 0 text).filter g.keeps).map g.token

end Grammar

/-- Tokens of a namespace: spelling by spelling, each from left to right. -/
def scan (text : Text) (ns : Namespace) : List Token :=
  (Grammar.ofNamespace ns).flatMap (Grammar.scan · text)

/-- Tokens of all namespaces in the order in which they are resolved. -/
def scanAll (text : Text) : List Token := Namespace.all.flatMap (scan text)

namespace Grammar

theorem upToBrace_eq_some_iff {text key : Text} :
    upToBrace text = some key ↔
      (∀ c ∈ key, c ≠ '}' ∧ c ≠ '\n') ∧ ∃ rest, text = key ++ '}' :: rest := by
  induction text generalizing key with
  | nil => simp [upToBrace]
  | cons c text ih =>
    simp only [upToBrace]
    split
    · next h =>
      subst h
      constructor
      · rintro ⟨⟩
        exact ⟨by simp, text, rfl⟩
      · rintro ⟨hkey, rest, h⟩
        cases key with
        | nil => rfl
        | cons d key =>
          obtain ⟨rfl, _⟩ := List.cons.inj h
          exact absurd rfl (hkey _ List.mem_cons_self).1
    · next hb =>
      split
      · next hn =>
        constructor
        · intro h; simp at h
        · rintro ⟨hkey, rest, h⟩
          cases key with
          | nil => exact absurd (List.cons.inj h).1 hb
          | cons d key =>
            obtain ⟨rfl, _⟩ := List.cons.inj h
            exact absurd hn (hkey _ List.mem_cons_self).2
      · next hn =>
        simp only [Option.map_eq_some_iff]
        constructor
        · rintro ⟨k, hk, rfl⟩
          obtain ⟨hchars, rest, rfl⟩ := ih.mp hk
          refine ⟨fun d hd => ?_, rest, rfl⟩
          rcases List.mem_cons.mp hd with rfl | hd
          · exact ⟨hb, hn⟩
          · exact hchars d hd
        · rintro ⟨hkey, rest, h⟩
          cases key with
          | nil => exact absurd (List.cons.inj h).1 hb
          | cons d key =>
            obtain ⟨rfl, htext⟩ := List.cons.inj h
            exact ⟨key, ih.mpr ⟨fun e he => hkey e (List.mem_cons_of_mem _ he), rest, htext⟩, rfl⟩

theorem keysFrom_skip (g : Grammar) (skip : Nat) (text : Text) :
    g.keysFrom skip text = g.keysFrom 0 (text.drop skip) := by
  induction text generalizing skip with
  | nil => cases skip <;> simp [keysFrom]
  | cons c text ih =>
    cases skip with
    | zero => rfl
    | succ skip => simpa [keysFrom] using ih skip

@[simp] theorem keysFrom_nil (g : Grammar) (skip : Nat) : g.keysFrom skip [] = [] := by
  cases skip <;> rfl

theorem keysFrom_of_key?_eq_none {g : Grammar} {c : Char} {text : Text}
    (h : g.key? (c :: text) = none) : g.keysFrom 0 (c :: text) = g.keysFrom 0 text := by
  simp [keysFrom, h]

/-- A match is reported, and the scan goes on behind its literal. -/
theorem keysFrom_of_key?_eq_some {g : Grammar} {key text : Text} (h : g.key? text = some key) :
    g.keysFrom 0 text = key :: g.keysFrom 0 (text.drop (g.literal key).length) := by
  cases text with
  | nil =>
    cases g with
    | mk ns opening keys =>
      cases opening <;> cases keys <;> simp [key?, Text.dropStart?, KeyClass.key?] at h
  | cons c text =>
    have hlen : (g.literal key).length = ((g.literal key).length - 1) + 1 := by
      simp [literal, Nat.add_assoc]
    rw [hlen]
    simp [keysFrom, h, keysFrom_skip]

end Grammar
end Placeholders
