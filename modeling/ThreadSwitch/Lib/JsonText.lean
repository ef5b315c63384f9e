import ThreadSwitch.Lib.Json

/-!
# JSON written by descriptors

An encoder driven by descriptors writes the members in order, without blanks, and
numbers in decimal. `Descr.textDocument` is the text of a whole document, and
`Descr.scanDocument` reads it back, by the descriptors that wrote it.

- `scanDocument_textDocument`: all numbers of a document are read back.
- `textDocument_inj`: so the text determines every number in it.
- `length_repr_le`: a 32-bit integer takes eleven characters at most.
-/

namespace ThreadSwitch.Lib

/-! ## Integers in a text -/

/-- A character of an integer in decimal. -/
def isIntChar (c : Char) : Bool := c.isDigit || c == '-'

/-- The integer that its characters stand for. -/
def intOfChars : List Char → Int
  | '-' :: digits => -(Nat.ofDigitChars 10 digits 0 : Int)
  | digits => Nat.ofDigitChars 10 digits 0

/-- The integer at the front of a text, and the text after it. -/
def scanInt (text : List Char) : Int × List Char :=
  (intOfChars (text.takeWhile isIntChar), text.dropWhile isIntChar)

/-- An integer before this text is not continued by it. -/
def EndsInt (rest : List Char) : Prop := ∀ c ∈ rest.head?, isIntChar c = false

theorem endsInt_cons {c : Char} (h : isIntChar c = false) (rest : List Char) :
    EndsInt (c :: rest) := by
  simpa [EndsInt] using h

theorem isDigit_of_mem_natRepr {n : Nat} {c : Char} (h : c ∈ n.repr.toList) : c.isDigit = true := by
  rw [Nat.toList_repr] at h
  exact Nat.isDigit_of_mem_toDigits (by decide) (by decide) h

theorem toList_negRepr (n : Nat) :
    (Int.negSucc n).repr.toList = '-' :: (n + 1).repr.toList := by
  show ("-" ++ (n + 1).repr).toList = _
  rw [String.toList_append]
  rfl

theorem isIntChar_of_mem_repr {n : Int} {c : Char} (h : c ∈ n.repr.toList) :
    isIntChar c = true := by
  unfold isIntChar
  cases n with
  | ofNat n => rw [isDigit_of_mem_natRepr h, Bool.true_or]
  | negSucc n =>
    rw [toList_negRepr, List.mem_cons] at h
    rcases h with rfl | h
    · rfl
    · rw [isDigit_of_mem_natRepr h, Bool.true_or]

theorem intOfChars_repr (n : Int) : intOfChars n.repr.toList = n := by
  have hdigits : ∀ n : Nat, Nat.ofDigitChars 10 n.repr.toList 0 = n := fun n => by
    rw [Nat.toList_repr, Nat.ofDigitChars_ten_toDigits]
  cases n with
  | ofNat n =>
    show intOfChars n.repr.toList = n
    unfold intOfChars
    split
    · -- a natural number starts with a digit
      rename_i digits hchars
      have hminus : '-'.isDigit = true := isDigit_of_mem_natRepr (by rw [hchars]; simp)
      exact absurd hminus (by decide)
    · rw [hdigits]
  | negSucc n =>
    rw [toList_negRepr]
    show -(Nat.ofDigitChars 10 (n + 1).repr.toList 0 : Int) = _
    rw [hdigits]
    rfl

/-- An integer in front of a text that does not continue it is read off. -/
theorem scanInt_repr (n : Int) {rest : List Char} (h : EndsInt rest) :
    scanInt (n.repr.toList ++ rest) = (n, rest) := by
  have hall : ∀ c ∈ n.repr.toList, isIntChar c = true := fun c => isIntChar_of_mem_repr
  unfold scanInt
  rw [List.takeWhile_append_of_pos hall, List.dropWhile_append_of_pos hall]
  cases rest with
  | nil => rw [List.takeWhile_nil, List.append_nil, intOfChars_repr, List.dropWhile_nil]
  | cons c rest =>
    have hc : ¬ isIntChar c = true := by simp [h c rfl]
    rw [List.takeWhile_cons_of_neg hc, List.append_nil, intOfChars_repr,
      List.dropWhile_cons_of_neg hc]

theorem length_repr_le {n : Int} (h : FitsInt32 n) : n.repr.length ≤ 11 := by
  obtain ⟨hlow, hhigh⟩ := h
  cases n with
  | ofNat n =>
    rw [Int.ofNat_eq_natCast] at hhigh
    have hn : n.repr.length ≤ 10 := (Nat.length_repr_le_iff (by omega)).mpr (by omega)
    exact Nat.le_succ_of_le hn
  | negSucc n =>
    have hn : (n + 1).repr.length ≤ 10 := (Nat.length_repr_le_iff (by omega)).mpr (by omega)
    have hminus : (Int.negSucc n).repr.length = 1 + (n + 1).repr.length := String.length_append ..
    omega

/-! ## Documents -/

namespace Descr

variable {φ : Type}

mutual
/-- The text of a member: its name and its value. -/
def text (values : φ → Int) : Descr φ → String
  | .number name field => "\"" ++ name ++ "\":" ++ (values field).repr
  | .object name sub => "\"" ++ name ++ "\":\x7b" ++ textMembers values sub ++ "\x7d"

def textMembers (values : φ → Int) : List (Descr φ) → String
  | [] => ""
  | descr :: rest =>
    descr.text values ++ (if rest.isEmpty then "" else ",") ++ textMembers values rest
end

/-- The text of a whole document. -/
def textDocument (values : φ → Int) (descrs : List (Descr φ)) : String :=
  "\x7b" ++ textMembers values descrs ++ "\x7d"

mutual
/-- The numbers in the text of a member, and the text after it. -/
def scan : Descr φ → List Char → List (φ × Int) × List Char
  | .number name field, chars =>
    let r := scanInt (chars.drop ("\"" ++ name ++ "\":").toList.length)
    ([(field, r.1)], r.2)
  | .object name sub, chars =>
    let r := scanMembers sub (chars.drop ("\"" ++ name ++ "\":\x7b").toList.length)
    (r.1, r.2.drop 1)

def scanMembers : List (Descr φ) → List Char → List (φ × Int) × List Char
  | [], chars => ([], chars)
  | descr :: rest, chars =>
    let r := descr.scan chars
    let q := scanMembers rest (if rest.isEmpty then r.2 else r.2.drop 1)
    (r.1 ++ q.1, q.2)
end

/-- The numbers in the text of a whole document. -/
def scanDocument (descrs : List (Descr φ)) (text : String) : List (φ × Int) :=
  (scanMembers descrs (text.toList.drop 1)).1

theorem text_number (values : φ → Int) (name : String) (field : φ) :
    (number name field).text values = "\"" ++ name ++ "\":" ++ (values field).repr := rfl

theorem text_object (values : φ → Int) (name : String) (sub : List (Descr φ)) :
    (object name sub).text values =
      "\"" ++ name ++ "\":\x7b" ++ textMembers values sub ++ "\x7d" := rfl

theorem textMembers_single (values : φ → Int) (descr : Descr φ) :
    textMembers values [descr] = descr.text values := by
  rw [textMembers, textMembers, List.isEmpty_nil, if_pos rfl, String.append_empty,
    String.append_empty]

theorem textMembers_cons (values : φ → Int) (descr next : Descr φ) (rest : List (Descr φ)) :
    textMembers values (descr :: next :: rest) =
      descr.text values ++ "," ++ textMembers values (next :: rest) := by
  rw [textMembers, List.isEmpty_cons, if_neg Bool.false_ne_true]

variable {v w : φ → Int}

theorem drop_toList (s t : String) (chars : List Char) :
    ((s ++ t).toList ++ chars).drop s.toList.length = t.toList ++ chars := by
  rw [String.toList_append, List.append_assoc, List.drop_left]

mutual
theorem scan_text : ∀ (descr : Descr φ) {chars : List Char}, EndsInt chars →
    descr.scan ((descr.text v).toList ++ chars) = (descr.fields.map fun f => (f, v f), chars)
  | .number name field, chars, h => by
    rw [scan, text, drop_toList, scanInt_repr _ h]
    rfl
  | .object name sub, chars, h => by
    have hbrace : EndsInt ("\x7d".toList ++ chars) := endsInt_cons (by decide) _
    have hassoc : "\"" ++ name ++ "\":\x7b" ++ textMembers v sub ++ "\x7d" =
        "\"" ++ name ++ "\":\x7b" ++ (textMembers v sub ++ "\x7d") := String.append_assoc
    rw [scan, text, hassoc, drop_toList, String.toList_append, List.append_assoc,
      scanMembers_text sub hbrace]
    rfl

theorem scanMembers_text : ∀ (descrs : List (Descr φ)) {chars : List Char}, EndsInt chars →
    scanMembers descrs ((textMembers v descrs).toList ++ chars) =
      ((allFields descrs).map fun f => (f, v f), chars)
  | [], chars, _ => rfl
  | [descr], chars, h => by
    rw [textMembers_single, scanMembers, scan_text descr h]
    simp [scanMembers, allFields]
  | descr :: next :: rest, chars, h => by
    have hcomma : EndsInt (",".toList ++ ((textMembers v (next :: rest)).toList ++ chars)) :=
      endsInt_cons (by decide) _
    have hnext := scanMembers_text (next :: rest) h
    rw [textMembers_cons, String.toList_append, String.toList_append, List.append_assoc,
      List.append_assoc, scanMembers, scan_text descr hcomma, allFields, List.map_append]
    show (_ ++ (scanMembers (next :: rest) (_ ++ chars)).1,
      (scanMembers (next :: rest) (_ ++ chars)).2) = _
    rw [hnext]
end

/-- All numbers of a document are read back. -/
theorem scanDocument_textDocument (descrs : List (Descr φ)) :
    scanDocument descrs (textDocument v descrs) = (allFields descrs).map fun f => (f, v f) := by
  have hbrace : EndsInt "\x7d".toList := endsInt_cons (by decide) _
  rw [scanDocument, textDocument, String.toList_append, String.toList_append, List.append_assoc]
  show (scanMembers descrs ((textMembers v descrs).toList ++ "\x7d".toList)).1 = _
  rw [scanMembers_text descrs hbrace]

/-- The text determines the values of all fields. -/
theorem textDocument_inj {descrs : List (Descr φ)}
    (h : textDocument v descrs = textDocument w descrs) : ∀ f ∈ allFields descrs, v f = w f := by
  have hscan := congrArg (scanDocument descrs) h
  rw [scanDocument_textDocument, scanDocument_textDocument, List.map_inj_left] at hscan
  exact fun f hf => (Prod.mk.inj (hscan f hf)).2

end Descr

end ThreadSwitch.Lib
