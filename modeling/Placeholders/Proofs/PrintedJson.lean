import Placeholders.Json.Parse
import Placeholders.Json.Print
import Mathlib.Data.List.TakeWhile
import Mathlib.Tactic.SplitIfs

/-! A printed JSON value is read back as it was. The reader meets the tokens of the value, with
blanks and line ends between them that mean nothing (`Token.readFrom_printAt`), and the machine
makes the value out of them again (`Parse.run_tokens`). A word or number ends where the next
character shows it, so what is said of a printed value asks that such a character follows. -/

namespace Placeholders

namespace Text

theorem hexDigit?_hexDigit : ∀ n < 16, hexDigit? (Json.hexDigit n) = some n := by decide

theorem ofNat_ne_nil (n : Nat) : ofNat n ≠ [] := Nat.toDigits_ne_nil

theorem isDigit_of_mem_ofNat {n : Nat} {c : Char} (h : c ∈ ofNat n) : c.isDigit = true :=
  Nat.isDigit_of_mem_toDigits (by decide) (by decide) h

/-- Only zero is written with a zero in front. -/
theorem eq_zero_of_ofNat {n : Nat} {digits : Text} (h : ofNat n = '0' :: digits) :
    n = 0 ∧ digits = [] := by
  induction n using Nat.strongRecOn generalizing digits with
  | _ n ih =>
    by_cases hn : n < 10
    · rw [ofNat, Nat.toDigits_of_lt_base hn, List.cons.injEq] at h
      exact ⟨Nat.digitChar_eq_zero.mp h.1, h.2.symm⟩
    · rw [ofNat, Nat.toDigits_of_base_le (by decide) (by omega)] at h
      change ofNat (n / 10) ++ _ = _ at h
      obtain ⟨front, rest, hfront⟩ := List.exists_cons_of_ne_nil (ofNat_ne_nil (n / 10))
      rw [hfront, List.cons_append, List.cons.injEq] at h
      have := (ih (n / 10) (by omega) (hfront.trans (by rw [h.1]))).1
      omega

end Text

namespace Json

/-! ### Tokens -/

mutual

def tokens : Json → List Token
  | .null => [.null]
  | .bool b => [.bool b]
  | .natural n => [.natural n]
  | .number => [.number]
  | .string s => [.string s]
  | .array [] => [.openArray, .closeArray]
  | .array (item :: items) => .openArray :: tokens item ++ itemTokens items ++ [.closeArray]
  | .object [] => [.openObject, .closeObject]
  | .object ((name, value) :: members) =>
    .openObject :: .string name :: .colon :: tokens value ++ memberTokens members
      ++ [.closeObject]

def itemTokens : List Json → List Token
  | [] => []
  | item :: items => .comma :: tokens item ++ itemTokens items

def memberTokens : List (Option Text × Json) → List Token
  | [] => []
  | (name, value) :: members =>
    .comma :: .string name :: .colon :: tokens value ++ memberTokens members

end

namespace Parse

mutual

/-- The machine makes a value out of its tokens, whatever is still open around it. -/
theorem run_tokens (value : Json) (stack : List Frame) (more : List Token) :
    run (.value stack) (tokens value ++ more) = run (.behind stack value) more := by
  match value with
  | .null => simp [tokens, run, step]
  | .bool b => simp [tokens, run, step]
  | .natural n => simp [tokens, run, step]
  | .number => simp [tokens, run, step]
  | .string s => simp [tokens, run, step]
  | .array [] => simp [tokens, run, step]
  | .object [] => simp [tokens, run, step]
  | .array (item :: items) =>
    simp [tokens, run, step, run_tokens item, run_itemTokens items]
  | .object ((name, value) :: members) =>
    simp [tokens, run, step, run_tokens value, run_memberTokens members]

theorem run_itemTokens (items : List Json) (before : List Json) (item : Json)
    (stack : List Frame) (more : List Token) :
    run (.behind (.array before :: stack) item) (itemTokens items ++ .closeArray :: more)
      = run (.behind stack (.array (before.reverse ++ item :: items))) more := by
  match items with
  | [] => simp [itemTokens, run, step]
  | next :: items =>
    simp [itemTokens, run, step, run_tokens next, run_itemTokens items]

theorem run_memberTokens (members : List (Option Text × Json))
    (before : List (Option Text × Json)) (name : Option Text) (value : Json)
    (stack : List Frame) (more : List Token) :
    run (.behind (.object before name :: stack) value)
        (memberTokens members ++ .closeObject :: more)
      = run (.behind stack (.object (before.reverse ++ (name, value) :: members))) more := by
  match members with
  | [] => simp [memberTokens, run, step]
  | (nextName, next) :: members =>
    simp [memberTokens, run, step, run_tokens next, run_memberTokens members]

end

end Parse

theorem ofTokens?_tokens (value : Json) : ofTokens? (tokens value) = some value := by
  have h := Parse.run_tokens value [] []
  rw [List.append_nil] at h
  rw [ofTokens?, h]
  rfl

namespace Token

/-! ### Steps of the reader -/

theorem readFrom_of_step {mode next : Mode} {c : Char} {found : List Token}
    (h : step mode c = some (found, next)) (text : Text) :
    readFrom mode (c :: text) = (readFrom next text).map (found ++ ·) := by
  cases mode <;> simp [readFrom, h]

theorem readFrom_of_silent {mode next : Mode} {c : Char} (h : step mode c = some ([], next))
    (text : Text) : readFrom mode (c :: text) = readFrom next text := by
  rw [readFrom_of_step h]
  exact Option.map_id'

theorem step_openArray : step .between '[' = some ([.openArray], .between) := rfl

theorem step_closeArray : step .between ']' = some ([.closeArray], .between) := rfl

theorem step_openObject : step .between '\x7b' = some ([.openObject], .between) := rfl

theorem step_closeObject : step .between '\x7d' = some ([.closeObject], .between) := rfl

theorem step_comma : step .between ',' = some ([.comma], .between) := rfl

theorem step_colon : step .between ':' = some ([.colon], .between) := rfl

theorem step_blank : step .between ' ' = some ([], .between) := rfl

theorem readFrom_newline (level : Nat) (text : Text) :
    readFrom .between (newline level ++ text) = readFrom .between text := by
  have lineEnd : step .between '\n' = some ([], .between) := rfl
  have blanks (count : Nat) :
      readFrom .between (List.replicate count ' ' ++ text) = readFrom .between text := by
    induction count with
    | zero => rfl
    | succ count ih =>
      rw [List.replicate_succ, List.cons_append, readFrom_of_silent step_blank, ih]
  rw [newline, List.cons_append, readFrom_of_silent lineEnd, blanks]

/-! ### Strings -/

/-- The part of a string that a character is read as: control characters without a short escape
are written by their numbers. -/
def Piece.of (c : Char) : Piece :=
  if c.toNat < 0x20 ∧ c ∉ ['\x08', '\x0c', '\n', '\r', '\t'] then .unit c.toNat else .char c

theorem assemble_unit_cons {n : Nat} (h : n < 0xD800) (pieces : List Piece) :
    assemble (.unit n :: pieces) = (assemble pieces).map (Char.ofNat n :: ·) := by
  have notHigh : ¬ 0xD800 ≤ n := by omega
  have notLow : ¬ 0xDC00 ≤ n := by omega
  cases pieces with
  | nil => simp [assemble, notHigh]
  | cons piece pieces => cases piece <;> simp [assemble, notHigh, notLow]

/-- The parts that the characters of a text are read as make the text again. -/
theorem assemble_map_of (text : Text) : assemble (text.map Piece.of) = some text := by
  induction text with
  | nil => rfl
  | cons c text ih =>
    rw [List.map_cons, Piece.of]
    split
    · next h =>
      rw [assemble_unit_cons (by omega), ih, Char.ofNat_toNat]
      rfl
    · rw [assemble, ih]
      rfl

/-- A character that is written by its number is read as that number. -/
private theorem readFrom_numbered {c : Char} (h : c.toNat < 0x20) (read : List Piece)
    (text : Text) :
    readFrom (.string read) (['\\', 'u', '0', '0', hexDigit (c.toNat / 16),
        hexDigit (c.toNat % 16)] ++ text)
      = readFrom (.string (.unit c.toNat :: read)) text := by
  have escape : step (.string read) '\\' = some ([], .escape read) := rfl
  have four : step (.escape read) 'u' = some ([], .hex 4 0 read) := rfl
  have three : step (.hex 4 0 read) '0' = some ([], .hex 3 0 read) := rfl
  have two : step (.hex 3 0 read) '0' = some ([], .hex 2 0 read) := rfl
  have one : step (.hex 2 0 read) (hexDigit (c.toNat / 16))
      = some ([], .hex 1 (c.toNat / 16) read) := by
    simp [step, Text.hexDigit?_hexDigit (c.toNat / 16) (by omega)]
  have done : step (.hex 1 (c.toNat / 16) read) (hexDigit (c.toNat % 16))
      = some ([], .string (.unit c.toNat :: read)) := by
    simp [step, Text.hexDigit?_hexDigit (c.toNat % 16) (by omega), Nat.div_add_mod']
  simp only [List.cons_append, List.nil_append]
  rw [readFrom_of_silent escape, readFrom_of_silent four, readFrom_of_silent three,
    readFrom_of_silent two, readFrom_of_silent one, readFrom_of_silent done]

/-- A character that is written by a short escape is read as it is. -/
private theorem readFrom_short {c short : Char} (h : shortEscape? short = some c)
    (read : List Piece) (text : Text) :
    readFrom (.string read) (['\\', short] ++ text)
      = readFrom (.string (.char c :: read)) text := by
  have escape : step (.string read) '\\' = some ([], .escape read) := rfl
  have notNumbered : short ≠ 'u' := by
    rintro rfl
    cases h
  have done : step (.escape read) short = some ([], .string (.char c :: read)) := by
    simp [step, notNumbered, h]
  simp only [List.cons_append, List.nil_append]
  rw [readFrom_of_silent escape, readFrom_of_silent done]

theorem readFrom_escape (c : Char) (read : List Piece) (text : Text) :
    readFrom (.string read) (escape c ++ text)
      = readFrom (.string (.of c :: read)) text := by
  unfold escape
  split_ifs with quote backslash b f n r t control
  · subst quote; exact readFrom_short rfl read text
  · subst backslash; exact readFrom_short rfl read text
  · subst b; exact readFrom_short rfl read text
  · subst f; exact readFrom_short rfl read text
  · subst n; exact readFrom_short rfl read text
  · subst r; exact readFrom_short rfl read text
  · subst t; exact readFrom_short rfl read text
  · have piece : Piece.of c = .unit c.toNat := by simp [Piece.of, control, b, f, n, r, t]
    rw [readFrom_numbered control, piece]
  · have piece : Piece.of c = .char c := by simp [Piece.of, control]
    have done : step (.string read) c = some ([], .string (.char c :: read)) := by
      simp [step, quote, backslash, control]
    rw [List.singleton_append, readFrom_of_silent done, piece]

theorem readFrom_flatMap_escape (written : Text) (read : List Piece) (text : Text) :
    readFrom (.string read) (written.flatMap escape ++ text)
      = readFrom (.string ((written.map Piece.of).reverse ++ read)) text := by
  induction written generalizing read with
  | nil => rfl
  | cons c written ih =>
    rw [List.flatMap_cons, List.append_assoc, readFrom_escape, ih]
    simp

/-- A written string is read as it was. -/
theorem readFrom_quote (s : Option Text) (text : Text) :
    readFrom .between (quote s ++ text) = (readFrom .between text).map (.string s :: ·) := by
  have opening : step .between '"' = some ([], .string []) := rfl
  cases s with
  | none =>
    have escape : step (.string []) '\\' = some ([], .escape []) := rfl
    have four : step (.escape []) 'u' = some ([], .hex 4 0 []) := rfl
    have three : step (.hex 4 0 []) 'd' = some ([], .hex 3 0xd []) := rfl
    have two : step (.hex 3 0xd []) '8' = some ([], .hex 2 0xd8 []) := rfl
    have one : step (.hex 2 0xd8 []) '0' = some ([], .hex 1 0xd80 []) := rfl
    have done : step (.hex 1 0xd80 []) '0' = some ([], .string [.unit 0xd800]) := rfl
    have closing : step (.string [.unit 0xd800]) '"' = some ([.string none], .between) := rfl
    have written : quote none = ['"', '\\', 'u', 'd', '8', '0', '0', '"'] := rfl
    simp only [written, List.cons_append, List.nil_append]
    rw [readFrom_of_silent opening, readFrom_of_silent escape, readFrom_of_silent four,
      readFrom_of_silent three, readFrom_of_silent two, readFrom_of_silent one,
      readFrom_of_silent done, readFrom_of_step closing]
    rfl
  | some characters =>
    have written : quote (some characters) = '"' :: (characters.flatMap Json.escape ++ ['"']) :=
      rfl
    have closing : step (.string (characters.map Piece.of).reverse) '"'
        = some ([.string (some characters)], .between) := by
      simp [step, assemble_map_of]
    rw [written, List.cons_append, List.append_assoc, List.singleton_append,
      readFrom_of_silent opening, readFrom_flatMap_escape, List.append_nil,
      readFrom_of_step closing]
    rfl

/-! ### Words and numbers -/

/-- A text before which a word or number ends. -/
inductive EndsWord : Text → Prop where
  | mk {c : Char} (rest : Text) (h : endsWord c = true) : EndsWord (c :: rest)

theorem endsWord_newline (level : Nat) (text : Text) : EndsWord (newline level ++ text) :=
  .mk _ rfl

private theorem readFrom_inside {letters : Text} (h : letters.any endsWord = false)
    (read text : Text) :
    readFrom (.word read) (letters ++ text)
      = readFrom (.word (letters.reverse ++ read)) text := by
  induction letters generalizing read with
  | nil => rfl
  | cons c letters ih =>
    obtain ⟨hc, hletters⟩ := Bool.or_eq_false_iff.mp h
    have inside : step (.word read) c = some ([], .word (c :: read)) := by
      simp [step, hc]
    rw [List.cons_append, readFrom_of_silent inside, ih hletters]
    simp

/-- The character behind a word means the same as if no word stood before it. -/
private theorem readFrom_behind {word : Text} {token : Token} (hword : ofWord? word = some token)
    {text : Text} (htext : EndsWord text) :
    readFrom (.word word.reverse) text = (readFrom .between text).map (token :: ·) := by
  obtain ⟨rest, h⟩ := htext
  rename_i c
  have behind : step (.word word.reverse) c = some (token :: (start c).1.toList, (start c).2) := by
    simp [step, h, hword]
  have between : step .between c = some ((start c).1.toList, (start c).2) := rfl
  rw [readFrom_of_step behind, readFrom_of_step between, Option.map_map]
  rfl

/-- The characters with which neither a token of one character nor a string nor a blank starts. -/
private theorem start_of_inside {c : Char} (h : endsWord c = false) :
    start c = (none, .word [c]) := by
  simp only [endsWord, Bool.or_eq_false_iff, List.contains_cons, beq_eq_false_iff_ne] at h
  simp [start, h]

theorem readFrom_word (word : Text) {token : Token} (hword : ofWord? word = some token)
    (hne : word ≠ []) (hinside : word.any endsWord = false) {text : Text}
    (htext : EndsWord text) :
    readFrom .between (word ++ text) = (readFrom .between text).map (token :: ·) := by
  obtain ⟨c, letters, rfl⟩ := List.exists_cons_of_ne_nil hne
  obtain ⟨hc, hletters⟩ := Bool.or_eq_false_iff.mp hinside
  have first : step .between c = some ([], .word [c]) := by
    simp [step, start_of_inside hc]
  rw [List.cons_append, readFrom_of_silent first, readFrom_inside hletters,
    ← readFrom_behind hword htext, List.reverse_cons]

theorem endsWord_of_isDigit {c : Char} (h : c.isDigit = true) : endsWord c = false := by
  have marks : ∀ d, endsWord d = true → d.isDigit = false := by
    simp [endsWord, isSpace, or_imp, forall_and]
  by_contra ends
  simp [marks c (by simpa using ends)] at h

theorem naturalOf_ofNat (n : Nat) : naturalOf (Text.ofNat n) = n := by
  rw [naturalOf, Text.ofNat]
  calc (Nat.toDigits 10 n).foldl (fun n c => n * 10 + (c.toNat - 0x30)) 0
      = Nat.ofDigitChars 10 (Nat.toDigits 10 n) 0 := by
        rw [Nat.ofDigitChars_eq_foldl]
        congr 1
        funext n c
        rw [Nat.mul_comm]
        rfl
    _ = n := Nat.ofDigitChars_ten_toDigits

/-- All of a written natural is its whole part. -/
theorem behindWhole?_ofNat (n : Nat) : behindWhole? (Text.ofNat n) = some [] := by
  have digits : ∀ c ∈ Text.ofNat n, c.isDigit = true := fun c => Text.isDigit_of_mem_ofNat
  cases h : Text.ofNat n with
  | nil => exact absurd h (Text.ofNat_ne_nil n)
  | cons c rest =>
    rw [h] at digits
    by_cases zero : c = '0'
    · subst zero
      rw [(Text.eq_zero_of_ofNat h).2]
      rfl
    · have all : rest.dropWhile Char.isDigit = [] :=
        List.dropWhile_eq_nil_iff.mpr fun d hd => digits d (List.mem_cons_of_mem _ hd)
      simp [behindWhole?, behindDigits?, zero, digits c List.mem_cons_self, all]

theorem ofWord?_ofNat (n : Nat) : ofWord? (Text.ofNat n) = some (.natural n) := by
  have digits : ∀ c ∈ Text.ofNat n, c.isDigit = true := fun c => Text.isDigit_of_mem_ofNat
  have all : (Text.ofNat n).all Char.isDigit = true := List.all_eq_true.mpr digits
  have whole := behindWhole?_ofNat n
  have value := naturalOf_ofNat n
  obtain ⟨c, rest, h⟩ := List.exists_cons_of_ne_nil (Text.ofNat_ne_nil n)
  rw [h] at digits all whole value ⊢
  have digit : c.isDigit = true := digits c List.mem_cons_self
  have word : c ≠ 'n' ∧ c ≠ 't' ∧ c ≠ 'f' := by
    refine ⟨?_, ?_, ?_⟩ <;> rintro rfl <;> cases digit
  have unsigned : c ≠ '-' := by
    rintro rfl
    cases digit
  rw [ofWord?, if_neg (by simp [word]), if_neg (by simp [word]), if_neg (by simp [word])]
  unfold number?
  simp [unsigned, whole, behindFraction?, behindExponent?, all, value]

theorem readFrom_ofNat (n : Nat) {text : Text} (htext : EndsWord text) :
    readFrom .between (Text.ofNat n ++ text) = (readFrom .between text).map (.natural n :: ·) := by
  have inside : (Text.ofNat n).any endsWord = false :=
    List.any_eq_false.mpr fun c hc => by
      simp [endsWord_of_isDigit (Text.isDigit_of_mem_ofNat hc)]
  exact readFrom_word _ (ofWord?_ofNat n) (Text.ofNat_ne_nil n) inside htext

/-! ### Values -/

theorem endsWord_printItems (level : Nat) (items : List Json) {text : Text}
    (htext : EndsWord text) : EndsWord (printItems level items ++ text) := by
  cases items with
  | nil => exact htext
  | cons item items => exact .mk _ rfl

theorem endsWord_printMembers (level : Nat) (members : List (Option Text × Json)) {text : Text}
    (htext : EndsWord text) : EndsWord (printMembers level members ++ text) := by
  cases members with
  | nil => exact htext
  | cons member members => exact .mk _ rfl

mutual

/-- Of a printed value the reader finds its tokens, and then reads on. -/
theorem readFrom_printAt (level : Nat) (value : Json) {text : Text} (htext : EndsWord text) :
    readFrom .between (printAt level value ++ text)
      = (readFrom .between text).map (tokens value ++ ·) := by
  match value with
  | .null => exact readFrom_word "null".toList rfl (by decide) rfl htext
  | .bool true => exact readFrom_word "true".toList rfl (by decide) rfl htext
  | .bool false => exact readFrom_word "false".toList rfl (by decide) rfl htext
  | .natural n => exact readFrom_ofNat n htext
  | .number => exact readFrom_word "-0".toList rfl (by decide) rfl htext
  | .string s => exact readFrom_quote s text
  | .array [] =>
    have brackets : printAt level (.array []) = ['[', ']'] := rfl
    simp only [brackets, List.cons_append, List.nil_append]
    rw [readFrom_of_step step_openArray, readFrom_of_step step_closeArray, Option.map_map]
    rfl
  | .object [] =>
    have braces : printAt level (.object []) = ['\x7b', '\x7d'] := rfl
    simp only [braces, List.cons_append, List.nil_append]
    rw [readFrom_of_step step_openObject, readFrom_of_step step_closeObject, Option.map_map]
    rfl
  | .array (item :: items) =>
    have behind : EndsWord (newline level ++ ']' :: text) := endsWord_newline level _
    simp only [printAt, List.cons_append, List.append_assoc, List.nil_append]
    rw [readFrom_of_step step_openArray, readFrom_newline,
      readFrom_printAt (level + 1) item (endsWord_printItems _ items behind),
      readFrom_printItems (level + 1) items behind, readFrom_newline,
      readFrom_of_step step_closeArray]
    simp [tokens, Option.map_map, Function.comp_def]
  | .object ((name, value) :: members) =>
    have behind : EndsWord (newline level ++ '\x7d' :: text) := endsWord_newline level _
    simp only [printAt, List.cons_append, List.append_assoc, List.nil_append]
    rw [readFrom_of_step step_openObject, readFrom_newline, readFrom_quote,
      readFrom_of_step step_colon, readFrom_of_silent step_blank,
      readFrom_printAt (level + 1) value (endsWord_printMembers _ members behind),
      readFrom_printMembers (level + 1) members behind, readFrom_newline,
      readFrom_of_step step_closeObject]
    simp [tokens, Option.map_map, Function.comp_def]

theorem readFrom_printItems (level : Nat) (items : List Json) {text : Text}
    (htext : EndsWord text) :
    readFrom .between (printItems level items ++ text)
      = (readFrom .between text).map (itemTokens items ++ ·) := by
  match items with
  | [] => simp [printItems, itemTokens]
  | item :: items =>
    simp only [printItems, List.cons_append, List.append_assoc]
    rw [readFrom_of_step step_comma, readFrom_newline,
      readFrom_printAt level item (endsWord_printItems _ items htext),
      readFrom_printItems level items htext]
    simp [itemTokens, Option.map_map, Function.comp_def]

theorem readFrom_printMembers (level : Nat) (members : List (Option Text × Json)) {text : Text}
    (htext : EndsWord text) :
    readFrom .between (printMembers level members ++ text)
      = (readFrom .between text).map (memberTokens members ++ ·) := by
  match members with
  | [] => simp [printMembers, memberTokens]
  | (name, value) :: members =>
    simp only [printMembers, List.cons_append, List.append_assoc, List.nil_append]
    rw [readFrom_of_step step_comma, readFrom_newline, readFrom_quote,
      readFrom_of_step step_colon, readFrom_of_silent step_blank,
      readFrom_printAt level value (endsWord_printMembers _ members htext),
      readFrom_printMembers level members htext]
    simp [memberTokens, Option.map_map, Function.comp_def]

end

theorem read_print (value : Json) : read value.print = some (tokens value) := by
  have ends : EndsWord ['\n'] := endsWord_newline 0 []
  have behind : readFrom .between ['\n'] = some [] := readFrom_newline 0 []
  rw [read, print, readFrom_printAt 0 value ends, behind, Option.map_some, List.append_nil]

end Token

/-- What is read of a printed value is the value. -/
theorem parse?_print (value : Json) : parse? value.print = some value := by
  rw [parse?, Token.read_print, Option.bind_some, ofTokens?_tokens]

end Json
end Placeholders
