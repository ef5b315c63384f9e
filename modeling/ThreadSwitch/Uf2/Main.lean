import ThreadSwitch.Uf2.HexToUf2
import ThreadSwitch.Uf2.ToUf2

/-!
# Runs of the program

`main` looks at what the input is, converts it, and prints the start address, which fails
when a HEX file without data has left none. `bin_twice` and `hex_twice`: what it converts to
UF2, it takes for UF2 the next time, and converts back.
-/

namespace ThreadSwitch.Uf2

open ThreadSwitch.Lib

/-- `is_uf2`. -/
def isUf2 (buf : Bytes) : Except PyError Bool :=
  if buf.length < 8 then .error .structError
  else .ok (unpackI buf 0 = uf2MagicStart0 ∧ unpackI buf 1 = uf2MagicStart1)

/-- `is_hex`, with the text if it is: a colon comes first, and every byte is a character of
a HEX file. A beginning that cannot be decoded has others. -/
def isHex (buf : Bytes) : Except PyError (Option (List HexChar)) :=
  match buf with
  | [] => .error .indexError
  | b :: _ => .ok (if b = 0x3A then buf.mapM hexChar else none)

/-- The options that matter to the conversion; `-f` has been looked up. -/
structure Args where
  base : Int
  familyid : Int
  deploy : Bool
  carray : Bool
  info : Bool

inductive Ext where
  | uf2
  | bin
  | h
  deriving DecidableEq, Repr

/-- The bytes of an ASCII text. -/
def ascii (text : List Char) : Bytes := text.map fun c => UInt8.ofNat c.toNat

/-- `"%02x" % b`. -/
def hex2 (b : UInt8) : List Char := [Nat.digitChar (b.toNat / 16), Nat.digitChar (b.toNat % 16)]

/-- The items of the array from number `i` on, 16 on a line. -/
def carrayItems (i : Nat) : Bytes → List Char
  | [] => []
  | b :: bs =>
    (if i % 16 = 0 then ['\n'] else []) ++ ("0x".toList ++ hex2 b ++ ", ".toList) ++
      carrayItems (i + 1) bs

/-- `convert_to_carray`. -/
def convertToCarray (fileContent : Bytes) : Bytes :=
  ascii ("const unsigned long bindata_len = ".toList ++ (Nat.repr fileContent.length).toList ++
    ";\n".toList ++ "const unsigned char bindata[] __attribute__((aligned(16))) = \x7b".toList ++
    carrayItems 0 fileContent ++ "\n\x7d;\n".toList)

/-- From `is_uf2` to the choice of the conversion in `main`. -/
def convertInput (args : Args) (inpbuf : Bytes) : Except PyError (Ext × Converted) :=
  (isUf2 inpbuf).bind fun fromUf2 =>
    if args.deploy then .ok (.uf2, ⟨inpbuf, some args.base, none⟩)
    else if fromUf2 && !args.info then
      (convertFromUf2 args.familyid args.base inpbuf).map fun r => (.bin, r)
    else if fromUf2 && args.info then
      (convertFromUf2 args.familyid args.base inpbuf).map fun r => (.uf2, { r with outbuf := [] })
    else (isHex inpbuf).bind fun
      | some text => (convertFromHexToUf2 args.familyid text).map fun r => (.uf2, r)
      | none =>
        if args.carray then .ok (.h, ⟨convertToCarray inpbuf, some args.base, none⟩)
        else (convertToUf2 args.familyid args.base inpbuf).map fun r => (.uf2, r)

/-- The start address is printed, unless the file is only deployed or looked at. -/
def convertMain (args : Args) (inpbuf : Bytes) : Except PyError (Ext × Converted) :=
  (convertInput args inpbuf).bind fun r =>
    if !args.deploy && !args.info && r.2.appstartaddr.isNone then .error .typeError else .ok r

theorem packed_isUf2 {familyid : Int} {numblocks : Nat} {first : Piece × Nat}
    {pieces : List (Piece × Nat)} {blocks : List Bytes}
    (h : Packed familyid numblocks (first :: pieces) blocks) : isUf2 blocks.flatten = .ok true := by
  cases h with
  | @cons _ block _ rest hb hrest =>
    obtain ⟨hlen, hhead, -⟩ := packBlock_spec first.1.full hb
    have h0 : unpackI block 0 = uf2MagicStart0 := congrArg Header.magicStart0 hhead
    have h1 : unpackI block 1 = uf2MagicStart1 := congrArg Header.magicStart1 hhead
    rw [isUf2, List.flatten_cons, if_neg, unpackI_append (by omega), unpackI_append (by omega), h0, h1]
    · rfl
    · rw [List.length_append]
      omega

/-- The options ask for a conversion. -/
def Args.Converts (args : Args) : Prop := args.deploy = false ∧ args.info = false

section
variable {args : Args} {inpbuf : Bytes} {r : Converted}

theorem convertInput_uf2 (hconv : args.Converts) (hu : isUf2 inpbuf = .ok true) :
    convertInput args inpbuf =
      (convertFromUf2 args.familyid args.base inpbuf).map fun r => (.bin, r) := by
  obtain ⟨hdeploy, hinfo⟩ := hconv
  simp [convertInput, hu, Except.bind, hdeploy, hinfo]

theorem convertInput_hex {text : List HexChar} (hconv : args.Converts)
    (hu : isUf2 inpbuf = .ok false) (hh : isHex inpbuf = .ok (some text)) :
    convertInput args inpbuf = (convertFromHexToUf2 args.familyid text).map fun r => (.uf2, r) := by
  obtain ⟨hdeploy, hinfo⟩ := hconv
  simp [convertInput, hu, hh, Except.bind, hdeploy]

theorem convertInput_bin (hconv : args.Converts) (hu : isUf2 inpbuf = .ok false)
    (hh : isHex inpbuf = .ok none) :
    convertInput args inpbuf =
      if args.carray then .ok (.h, ⟨convertToCarray inpbuf, some args.base, none⟩)
      else (convertToUf2 args.familyid args.base inpbuf).map fun r => (.uf2, r) := by
  obtain ⟨hdeploy, hinfo⟩ := hconv
  simp [convertInput, hu, hh, Except.bind, hdeploy]

theorem convertMain_eq_ok {x : Ext × Converted} (hconv : args.Converts) :
    convertMain args inpbuf = .ok x ↔
      convertInput args inpbuf = .ok x ∧ x.2.appstartaddr.isSome = true := by
  obtain ⟨hdeploy, hinfo⟩ := hconv
  rw [convertMain]
  cases convertInput args inpbuf with
  | error e => simp [Except.bind]
  | ok y =>
    simp only [Except.bind, hdeploy, hinfo]
    cases hy : y.2.appstartaddr <;> simp
    · rintro rfl
      exact hy
    · rintro rfl
      rw [hy]
      rfl

/-- What comes out as UF2 is a HEX file or a binary converted. -/
theorem convertMain_uf2 (hconv : args.Converts) (h : convertMain args inpbuf = .ok (.uf2, r)) :
    (∃ text, isHex inpbuf = .ok (some text) ∧
        convertFromHexToUf2 args.familyid text = .ok r) ∨
      isHex inpbuf = .ok none ∧ convertToUf2 args.familyid args.base inpbuf = .ok r := by
  obtain ⟨hi, -⟩ := (convertMain_eq_ok hconv).mp h
  cases hu : isUf2 inpbuf with
  | error e => simp [convertInput, hu, Except.bind] at hi
  | ok fromUf2 =>
    cases fromUf2 with
    | true =>
      rw [convertInput_uf2 hconv hu] at hi
      obtain ⟨_, -, hr⟩ := map_eq_ok_iff.mp hi
      cases hr
    | false =>
      cases hh : isHex inpbuf with
      | error e => simp [convertInput, hu, hh, Except.bind, hconv.1] at hi
      | ok text =>
        cases text with
        | some text =>
          rw [convertInput_hex hconv hu hh] at hi
          obtain ⟨_, hr, heq⟩ := map_eq_ok_iff.mp hi
          cases heq
          exact .inl ⟨text, rfl, hr⟩
        | none =>
          rw [convertInput_bin hconv hu hh] at hi
          split at hi
          · cases hi
          · obtain ⟨_, hr, heq⟩ := map_eq_ok_iff.mp hi
            cases heq
            exact .inr ⟨rfl, hr⟩

/-- A UF2 file is converted back. -/
theorem convertMain_isUf2_iff (hconv : args.Converts) (h : isUf2 inpbuf = .ok true) :
    convertMain args inpbuf = .ok (.bin, r) ↔
      convertFromUf2 args.familyid args.base inpbuf = .ok r ∧ r.appstartaddr.isSome = true := by
  rw [convertMain_eq_ok hconv, convertInput_uf2 hconv h, map_eq_ok_iff]
  simp

end

/-- **A binary survives two runs of the program**: what it is converted to is taken for UF2
the next time and converted back to the binary, filled up to whole blocks, and to its base
address. Asked for another family, nothing comes back. -/
theorem bin_twice {args args' : Args} {inpbuf : Bytes} {r : Converted} (hconv : args.Converts)
    (hconv' : args'.Converts) (hbin : isHex inpbuf = .ok none)
    (h : convertMain args inpbuf = .ok (.uf2, r)) :
    ∃ info, convertMain args' r.outbuf = .ok (.bin,
      if args'.familyid = 0 ∨ args'.familyid = args.familyid then
        ⟨padded inpbuf, some args.base, info⟩
      else ⟨[], some args'.base, info⟩) := by
  have hne : inpbuf ≠ [] := fun hnil => by rw [hnil] at hbin; cases hbin
  rcases convertMain_uf2 hconv h with ⟨text, hhex, -⟩ | ⟨-, hr⟩
  · rw [hbin] at hhex
    cases hhex
  obtain ⟨info, hback⟩ := @bin_round_trip args.familyid args.base inpbuf args'.familyid args'.base r hne hr
  obtain ⟨blocks, hpacked, rfl⟩ := convertToUf2_iff.mp hr
  obtain ⟨rest, hpieces⟩ := binPieces_cons args.base hne
  rw [hpieces] at hpacked
  refine ⟨info, (convertMain_isUf2_iff hconv' (packed_isUf2 hpacked)).mpr ⟨hback, ?_⟩⟩
  split <;> rfl

/-- The options that are not given, but for a family. -/
def defaultArgs (familyid : Int) : Args where
  base := 0x2000
  familyid := familyid
  deploy := false
  carray := false
  info := false

theorem bin_twice_nine : ∃ r info,
    convertMain (defaultArgs 7) [1, 2, 3, 4, 5, 6, 7, 8, 9] = .ok (.uf2, r) ∧
      convertMain (defaultArgs 0) r.outbuf =
        .ok (.bin, ⟨padded [1, 2, 3, 4, 5, 6, 7, 8, 9], some 0x2000, info⟩) := by
  have hconv : ∀ familyid, (defaultArgs familyid).Converts := fun _ => ⟨rfl, rfl⟩
  obtain ⟨r, hr⟩ := (@convertToUf2_isOk_iff (defaultArgs 7).familyid (defaultArgs 7).base
    [1, 2, 3, 4, 5, 6, 7, 8, 9] (by decide)).mpr (by decide)
  have hmain : convertMain (defaultArgs 7) [1, 2, 3, 4, 5, 6, 7, 8, 9] = .ok (.uf2, r) := by
    rw [convertMain_eq_ok (hconv 7), convertInput_bin (hconv 7) (by decide) (by decide)]
    have hstart : r.appstartaddr.isSome = true := by
      obtain ⟨blocks, -, rfl⟩ := convertToUf2_iff.mp hr
      rfl
    have hmap := (@map_eq_ok_iff _ _ _ (fun r => (Ext.uf2, r)) (Ext.uf2, r)).mpr ⟨r, hr, rfl⟩
    exact ⟨hmap, hstart⟩
  obtain ⟨info, hback⟩ := bin_twice (hconv 7) (hconv 0) (by decide) hmain
  exact ⟨r, info, hmain, hback⟩

/-- **A HEX file converted twice** comes out as a binary exactly when it visits its pages one
after the other, without a gap; the binary starts at the first page and is what the HEX file
says, filled up with zeros. -/
theorem hex_twice {args args' : Args} {inpbuf outbuf : Bytes} {text : List HexChar}
    {rs : List Record} {w : Nat × UInt8} {ws : List (Nat × UInt8)} {r : Converted} {start : Int}
    (hconv : args.Converts) (hconv' : args'.Converts) (hhex : isHex inpbuf = .ok (some text))
    (hread : readRecords (text.splitOn .lf) = .ok rs) (hws : hexWrites rs = w :: ws)
    (h : convertMain args inpbuf = .ok (.uf2, r)) :
    (∃ info, convertMain args' r.outbuf = .ok (.bin, ⟨outbuf, some start, info⟩)) ↔
      (visits 256 (w :: ws)).IsChain (fun p q => q = p + 1) ∧
        if args'.familyid = 0 ∨ args'.familyid = args.familyid then
          outbuf = (List.range (256 * (visits 256 (w :: ws)).length)).map (fun i =>
              (image (w :: ws) (w.1 / 256 * 256 + i)).getD 0) ∧
            start = (w.1 / 256 * 256 : Nat)
        else outbuf = [] ∧ start = args'.base := by
  rcases convertMain_uf2 hconv h with ⟨text', htext, hr⟩ | ⟨hbin, -⟩
  · rw [hhex] at htext
    cases htext
    rw [← hex_to_bin hread hws hr]
    obtain ⟨rs', blocks, hread', hpacked, rfl⟩ := convertFromHexToUf2_iff.mp hr
    rw [hread] at hread'
    cases hread'
    obtain ⟨first, pieces, hpieces, -⟩ := hexPieces_cons w ws
    rw [hws, hpieces] at hpacked
    refine exists_congr fun info => ?_
    rw [convertMain_isUf2_iff hconv' (packed_isUf2 hpacked)]
    exact and_iff_left rfl
  · rw [hhex] at hbin
    cases hbin

/-- Two bytes at 0x1000, and the end. -/
def twoHex : Bytes := ascii ":021000000102EB\n:00000001FF\n".toList

theorem hex_twice_two : ∃ r info,
    convertMain (defaultArgs 7) twoHex = .ok (.uf2, r) ∧
      convertMain (defaultArgs 0) r.outbuf =
        .ok (.bin, ⟨[1, 2] ++ List.replicate 254 0, some 0x1000, info⟩) := by
  have hconv : ∀ familyid, (defaultArgs familyid).Converts := fun _ => ⟨rfl, rfl⟩
  obtain ⟨text, hhex, hread⟩ : ∃ text, isHex twoHex = .ok (some text) ∧
      readRecords (text.splitOn .lf) = .ok [.data 0x1000 [1, 2]] :=
    ⟨hexText false [.data 0x1000 [1, 2] (by decide)], by decide +kernel, records_text _ _⟩
  obtain ⟨r, hr⟩ := (@hex_isOk_iff 7 text).mpr ⟨_, hread, by decide, fun _ => by decide⟩
  have hmain : convertMain (defaultArgs 7) twoHex = .ok (.uf2, r) := by
    rw [convertMain_eq_ok (hconv 7), convertInput_hex (hconv 7) (by decide +kernel) hhex]
    obtain ⟨rs, blocks, hread', -, rfl⟩ := convertFromHexToUf2_iff.mp hr
    rw [hread] at hread'
    cases hread'
    exact ⟨map_eq_ok_iff.mpr ⟨_, hr, rfl⟩, rfl⟩
  have hws : hexWrites [.data 0x1000 [1, 2]] = (0x1000, 1) :: [(0x1001, 2)] := rfl
  obtain ⟨info, hback⟩ := (@hex_twice _ _ _ ([1, 2] ++ List.replicate 254 0) _ _ _ _ _ 0x1000
    (hconv 7) (hconv 0) hhex hread hws hmain).mpr ⟨by decide, by decide +kernel, rfl⟩
  exact ⟨r, info, hmain, hback⟩

end ThreadSwitch.Uf2
