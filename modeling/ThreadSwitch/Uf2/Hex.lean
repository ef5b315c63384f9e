import ThreadSwitch.Uf2.FromUf2

/-!
# Reading HEX files

A HEX file is text: a line is a colon and a record in hexadecimal digits, that is a count,
an address, a type, data and a checksum. `convert_from_hex_to_uf2` reads it line by line
(`readRecords`) and stores the data (in `HexToUf2`). It uses neither the count nor the
checksum: the last byte of a line is dropped, whatever it is.

`records_text`: of a well-formed file, all records are read, however its lines end.
-/

namespace ThreadSwitch.Uf2

open ThreadSwitch.Lib

/-- The characters that `is_hex` lets through; `int` does not see the case of a digit. -/
inductive HexChar where
  | colon
  | digit (d : Fin 16)
  | cr
  | lf
  deriving DecidableEq, Repr

/-- The character of an ASCII byte. -/
def hexChar (b : UInt8) : Option HexChar :=
  let n := b.toNat
  if n = 0x3A then some .colon
  else if n = 0x0D then some .cr
  else if n = 0x0A then some .lf
  else if 0x30 ≤ n ∧ n ≤ 0x39 then some (.digit (Fin.ofNat 16 (n - 0x30)))
  else if 0x41 ≤ n ∧ n ≤ 0x46 then some (.digit (Fin.ofNat 16 (n - 0x41 + 10)))
  else if 0x61 ≤ n ∧ n ≤ 0x66 then some (.digit (Fin.ofNat 16 (n - 0x61 + 10)))
  else none

/-- `int` of two characters, in base 16. A carriage return next to a digit is white space. -/
def int16 : HexChar → HexChar → Except PyError UInt8
  | .digit hi, .digit lo => .ok (UInt8.ofNat (16 * hi + lo))
  | .digit d, .cr => .ok (UInt8.ofNat d)
  | .cr, .digit d => .ok (UInt8.ofNat d)
  | _, _ => .error .valueError

/-- `rec`, of the characters after the colon: a last one without a partner is dropped. -/
def recBytes : List HexChar → Except PyError Bytes
  | a :: b :: chars => (int16 a b).bind fun n => (recBytes chars).map fun rec => n :: rec
  | _ => .ok []

/-- `(rec[i] << 8) | rec[i + 1]`. -/
def word16 (rec : Bytes) (i : Nat) : Except PyError Nat :=
  match rec[i]?, rec[i + 1]? with
  | some hi, some lo => .ok (hi.toNat <<< 8 ||| lo.toNat)
  | _, _ => .error .indexError

/-- What a record says. -/
inductive Record where
  | upper (upper : Nat)
  | endOfFile
  | data (offset : Nat) (bytes : Bytes)
  | other
  deriving DecidableEq, Repr

/-- The record of a line, by its type. The data ends before the last byte. -/
def record (rec : Bytes) : Except PyError Record :=
  match rec[3]? with
  | none => .error .indexError
  | some tp =>
    if tp = 4 then (word16 rec 4).map fun w => .upper (w <<< 16)
    else if tp = 2 then (word16 rec 4).map fun w => .upper (w <<< 4)
    else if tp = 1 then .ok .endOfFile
    else if tp = 0 then (word16 rec 1).map fun w => .data w (rec.drop 4).dropLast
    else .ok .other

/-- The records of the lines up to the end-of-file record. A line that does not start with
a colon is skipped, but `line[0]` of an empty line is an error. -/
def readRecords : List (List HexChar) → Except PyError (List Record)
  | [] => .ok []
  | [] :: _ => .error .indexError
  | (c :: chars) :: lines =>
    if c ≠ .colon then readRecords lines
    else (recBytes chars).bind fun rec => (record rec).bind fun
      | .endOfFile => .ok []
      | r => (readRecords lines).map fun rs => r :: rs

/-! ## Well-formed files -/

/-- The two digits of a byte. -/
def byteChars (b : UInt8) : List HexChar :=
  [.digit (Fin.ofNat 16 (b.toNat / 16)), .digit (Fin.ofNat 16 (b.toNat % 16))]

/-- The low bytes of a number, most significant first. -/
def toBE (w n : Nat) : Bytes := (toLE w n).reverse

/-- A record of a HEX file, other than its last. -/
inductive HexRecord where
  | data (offset : UInt16) (bytes : Bytes) (short : bytes.length < 256)
  | segment (base : UInt16)
  | linear (base : UInt16)
  | start (wide : Bool) (address : UInt32)

namespace HexRecord

/-- The bytes of a record: count, address, type, data and checksum. -/
def wire (offset : Nat) (tp : UInt8) (bytes : Bytes) : Bytes :=
  let body := UInt8.ofNat bytes.length :: toBE 2 offset ++ tp :: bytes
  body ++ [body.foldl (fun check b => check - b) 0]

def bytes : HexRecord → Bytes
  | data offset bytes _ => wire offset.toNat 0 bytes
  | segment base => wire 0 2 (toBE 2 base.toNat)
  | linear base => wire 0 4 (toBE 2 base.toNat)
  | start wide address => wire 0 (if wide then 5 else 3) (toBE 4 address.toNat)

/-- What is meant by it. -/
def meaning : HexRecord → Record
  | data offset bytes _ => .data offset.toNat bytes
  | segment base => .upper (16 * base.toNat)
  | linear base => .upper (65536 * base.toNat)
  | start _ _ => .other

end HexRecord

/-- The line of a record. Lines end in a line feed, some with a carriage return before it. -/
def hexLine (crlf : Bool) (rec : Bytes) : List HexChar :=
  .colon :: rec.flatMap byteChars ++ if crlf then [.cr] else []

/-- The lines of records. -/
def hexLines (crlf : Bool) (rs : List HexRecord) : List (List HexChar) :=
  rs.map fun r => hexLine crlf r.bytes

/-- The line of the end-of-file record. -/
def endLine (crlf : Bool) : List HexChar := hexLine crlf (HexRecord.wire 0 1 [])

/-- The text of lines. -/
def textOf (lines : List (List HexChar)) : List HexChar := lines.flatMap fun line => line ++ [.lf]

/-- A HEX file: its records, and the end-of-file record. -/
def hexText (crlf : Bool) (rs : List HexRecord) : List HexChar :=
  textOf (hexLines crlf rs ++ [endLine crlf])

theorem int16_byteChars (b : UInt8) :
    int16 (.digit (Fin.ofNat 16 (b.toNat / 16))) (.digit (Fin.ofNat 16 (b.toNat % 16))) = .ok b := by
  have hb := b.toNat_lt
  have hhi : b.toNat / 16 % 16 = b.toNat / 16 := by omega
  have hsum : 16 * (b.toNat / 16) + b.toNat % 16 = b.toNat := by omega
  simp [int16, hhi, hsum]

/-- The bytes that were written are read; a carriage return after them is not seen. -/
theorem recBytes_flatMap (rec : Bytes) (crlf : Bool) :
    recBytes (rec.flatMap byteChars ++ if crlf then [.cr] else []) = .ok rec := by
  induction rec with
  | nil => cases crlf <;> rfl
  | cons b rec ih =>
    show (int16 (.digit (Fin.ofNat 16 (b.toNat / 16))) (.digit (Fin.ofNat 16 (b.toNat % 16)))).bind
      (fun n => (recBytes (rec.flatMap byteChars ++ if crlf then [.cr] else [])).map (n :: ·)) = _
    rw [int16_byteChars, ih]
    rfl

theorem word16_toBE (before rest : Bytes) {n : Nat} (h : n < 65536) :
    word16 (before ++ (toBE 2 n ++ rest)) before.length = .ok n := by
  have hhi : (UInt8.ofNat (n / 256)).toNat = n / 256 := by simp; omega
  have hlo : (UInt8.ofNat n).toNat = n % 256 := by simp
  have hor : (n / 256) <<< 8 ||| n % 256 = n := by
    rw [← Nat.shiftLeft_add_eq_or_of_lt (by omega), Nat.shiftLeft_eq]
    omega
  have hBE : toBE 2 n = [UInt8.ofNat (n / 256), UInt8.ofNat n] := rfl
  simp [word16, hBE, hhi, hlo, hor]

theorem wire_eq (offset : Nat) (tp : UInt8) (bytes : Bytes) :
    ∃ count check, HexRecord.wire offset tp bytes =
      [count] ++ (toBE 2 offset ++ tp :: (bytes ++ [check])) :=
  ⟨UInt8.ofNat bytes.length, _, rfl⟩

theorem record_wire {offset : Nat} (h : offset < 65536) (tp : UInt8) (bytes : Bytes) :
    record (HexRecord.wire offset tp bytes) =
      if tp = 4 then (word16 (HexRecord.wire offset tp bytes) 4).map fun w => .upper (w <<< 16)
      else if tp = 2 then (word16 (HexRecord.wire offset tp bytes) 4).map fun w => .upper (w <<< 4)
      else if tp = 1 then .ok .endOfFile
      else if tp = 0 then .ok (.data offset bytes)
      else .ok .other := by
  obtain ⟨count, check, hw⟩ := wire_eq offset tp bytes
  have htp : (HexRecord.wire offset tp bytes)[3]? = some tp := rfl
  have haddr : word16 (HexRecord.wire offset tp bytes) 1 = .ok offset := by
    rw [hw]
    exact word16_toBE [count] _ h
  have hdata : ((HexRecord.wire offset tp bytes).drop 4).dropLast = bytes := by
    rw [hw]
    exact List.dropLast_concat
  simp only [record, htp, haddr, hdata, Except.map]

/-- The base in a record of type 2 or 4. -/
theorem word16_wire {base : Nat} (h : base < 65536) (tp : UInt8) :
    word16 (HexRecord.wire 0 tp (toBE 2 base)) 4 = .ok base := by
  obtain ⟨count, check, hw⟩ := wire_eq 0 tp (toBE 2 base)
  rw [hw]
  exact word16_toBE [count, 0, 0, tp] [check] h

/-- A record is read as what is meant by it. -/
theorem record_bytes (r : HexRecord) : record r.bytes = .ok r.meaning := by
  cases r with
  | data offset bytes short =>
    rw [HexRecord.bytes, record_wire offset.toNat_lt]
    rfl
  | segment base =>
    rw [HexRecord.bytes, record_wire (Nat.zero_lt_succ _), word16_wire base.toNat_lt]
    simp [Except.map, HexRecord.meaning, Nat.shiftLeft_eq, Nat.mul_comm]
  | linear base =>
    rw [HexRecord.bytes, record_wire (Nat.zero_lt_succ _), word16_wire base.toNat_lt]
    simp [Except.map, HexRecord.meaning, Nat.shiftLeft_eq, Nat.mul_comm]
  | start wide address =>
    rw [HexRecord.bytes, record_wire (Nat.zero_lt_succ _)]
    cases wide <;> rfl

theorem readRecords_hexLine (crlf : Bool) (rec : Bytes) (lines : List (List HexChar)) :
    readRecords (hexLine crlf rec :: lines) = (record rec).bind fun
      | .endOfFile => .ok []
      | r => (readRecords lines).map fun rs => r :: rs := by
  show (recBytes (rec.flatMap byteChars ++ if crlf then [.cr] else [])).bind _ = _
  rw [recBytes_flatMap]
  rfl

/-- The lines of records are read, and then the lines after them. -/
theorem readRecords_append (crlf : Bool) (rs : List HexRecord) (lines : List (List HexChar)) :
    readRecords (rs.map (fun r => hexLine crlf r.bytes) ++ lines) =
      (readRecords lines).map fun more => rs.map HexRecord.meaning ++ more := by
  induction rs with
  | nil =>
    rw [List.map_nil, List.nil_append]
    cases readRecords lines <;> rfl
  | cons r rs ih =>
    rw [List.map_cons, List.cons_append, readRecords_hexLine, record_bytes, ih]
    cases r <;> cases readRecords lines <;> rfl

theorem lf_notMem_hexLine (crlf : Bool) (rec : Bytes) : HexChar.lf ∉ hexLine crlf rec := by
  have hrec : ∀ b : UInt8, HexChar.lf ∉ byteChars b := fun b => by simp [byteChars]
  cases crlf <;> simp [hexLine, hrec]

theorem lf_notMem_hexLines (crlf : Bool) (rs : List HexRecord) :
    ∀ line ∈ hexLines crlf rs, HexChar.lf ∉ line :=
  List.forall_mem_map.mpr fun _ _ => lf_notMem_hexLine _ _

/-- The lines of a text are found again, with an empty one after the last. -/
theorem splitOn_textOf {lines : List (List HexChar)} (h : ∀ line ∈ lines, HexChar.lf ∉ line) :
    (textOf lines).splitOn .lf = lines ++ [[]] := by
  induction lines with
  | nil => rfl
  | cons line lines ih =>
    have hrest : (textOf lines).splitOn .lf = lines ++ [[]] :=
      ih fun l hl => h l (List.mem_cons_of_mem _ hl)
    rw [textOf, List.flatMap_cons, List.append_assoc, List.singleton_append,
      List.splitOn_append_cons_self_of_not_mem (h line List.mem_cons_self), ← textOf, hrest,
      List.cons_append]

/-- **A well-formed file is read**: whichever way its lines end, the records are those that
were meant. -/
theorem records_text (crlf : Bool) (rs : List HexRecord) :
    readRecords ((hexText crlf rs).splitOn .lf) = .ok (rs.map HexRecord.meaning) := by
  have hend : readRecords [endLine crlf, []] = .ok [] := readRecords_hexLine _ _ _
  rw [hexText, splitOn_textOf, List.append_assoc, hexLines, readRecords_append]
  · show (readRecords [endLine crlf, []]).map _ = _
    rw [hend, Except.map, List.append_nil]
  · rw [List.forall_mem_append, List.forall_mem_singleton]
    exact ⟨lf_notMem_hexLines crlf rs, lf_notMem_hexLine crlf _⟩

end ThreadSwitch.Uf2
