import Mathlib.Order.Bounds.Basic
import Mathlib.Order.Nat
import ThreadSwitch.Lib.Machine
import ThreadSwitch.Uf2.Block

/-!
# Reading UF2 files

`convert_from_uf2` walks over the blocks of a file. `reader` is its loop as a machine: a
block is an event, and what is added to `outp` is the output. Every message that the loop
builds for a block it does not like adds an `int` to a `str`, so it raises a `TypeError`
whatever the reason.

The loop means to fill a gap between two blocks with zeros. But `outp` is a list, to
which `+=` adds the zeros one by one, as integers, and `b"".join(outp)` takes no integers:
a file with a gap is not converted.
-/

namespace ThreadSwitch.Uf2

open ThreadSwitch.Lib

/-- An element of `outp`. -/
inductive OutItem where
  | bytes (b : Bytes)
  | int (n : Nat)
  deriving DecidableEq, Repr

/-- `b"".join(outp)`. -/
def join : List OutItem → Except PyError Bytes
  | [] => .ok []
  | .bytes b :: outp => (join outp).map fun bs => b ++ bs
  | .int _ :: _ => .error .typeError

structure Reader where
  curraddr : Option Nat
  currfamilyid : Option Nat
  /-- The families in the order they were found, with their lowest addresses. -/
  familiesFound : List (Nat × Nat)
  prevFlag : Option Nat
  allFlagsSame : Bool
  appstartaddr : Int
  deriving DecidableEq, Repr

/-- What is printed of a file: the families, and the flags if all blocks have the same. -/
structure HeaderInfo where
  families : List (Nat × Nat)
  flags : Option Nat
  deriving DecidableEq, Repr

/-- What a conversion returns, and the `appstartaddr` it leaves. -/
structure Converted where
  outbuf : Bytes
  appstartaddr : Option Int
  info : Option HeaderInfo
  deriving DecidableEq, Repr

namespace Reader

def start (appstartaddr : Int) : Reader where
  curraddr := none
  currfamilyid := none
  familiesFound := []
  prevFlag := none
  allFlagsSame := true
  appstartaddr := appstartaddr

/-- The first block, or one of another family, starts at its own address. -/
def enter (familyid : Int) (hd : Header) (s : Reader) : Reader :=
  let s :=
    if hd.hasFamily && s.currfamilyid.isNone then { s with currfamilyid := some hd.familyid }
    else s
  if s.curraddr.isNone || (hd.hasFamily && s.currfamilyid != some hd.familyid) then
    let s := { s with currfamilyid := some hd.familyid, curraddr := some hd.addr }
    if familyid = 0 ∨ familyid = hd.familyid then { s with appstartaddr := hd.addr } else s
  else s

/-- `families_found`, with the address of a block of the family. -/
def found (families : List (Nat × Nat)) (familyid newaddr : Nat) : List (Nat × Nat) :=
  if families.any (·.1 == familyid) then
    families.map fun f => if f.1 = familyid ∧ newaddr < f.2 then (familyid, newaddr) else f
  else families ++ [(familyid, newaddr)]

/-- From `curraddr = newaddr + datalen` on. -/
def leave (hd : Header) (s : Reader) : Reader :=
  let s := { s with curraddr := some (hd.addr + hd.datalen) }
  let s :=
    if hd.hasFamily then { s with familiesFound := found s.familiesFound hd.familyid hd.addr }
    else s
  let s := if s.prevFlag.isNone then { s with prevFlag := some hd.flags } else s
  if s.prevFlag != some hd.flags then { s with allFlagsSame := false } else s

end Reader

/-- The data of the block goes into the output. -/
def Selects (familyid : Int) (hd : Header) : Prop :=
  familyid = 0 ∨ (hd.hasFamily = true ∧ familyid = hd.familyid)

instance (familyid : Int) (hd : Header) : Decidable (Selects familyid hd) :=
  inferInstanceAs (Decidable (_ ∨ _))

def reader (familyid : Int) : Machine Reader Bytes OutItem where
  step s block :=
    let hd := unpackHeader block
    if ¬ hd.Magic then none
    else if hd.noFlash then some (s, [])
    else if 476 < hd.datalen then none
    else
      let s := s.enter familyid hd
      let padding : Int := hd.addr - s.curraddr.getD hd.addr
      if padding < 0 then none
      else if 10 * 1024 * 1024 < padding then none
      else if padding % 4 ≠ 0 then none
      else
        let outp := List.replicate padding.toNat (.int 0)
        let outp := if Selects familyid hd then outp ++ [.bytes (data block)] else outp
        some (s.leave hd, outp)

/-- The last block of the file, if it is flashed. -/
def lastFlashed (buf : Bytes) : Option Bytes :=
  (chunks 512 buf).getLast?.filter fun block => !(unpackHeader block).noFlash

/-- `convert_from_uf2`. What the loop does in its last round only is done after it here; a
last block that is not flashed does not get there. -/
def convertFromUf2 (familyid appstartaddr : Int) (buf : Bytes) : Except PyError Converted :=
  match (reader familyid).run (Reader.start appstartaddr) (chunks 512 buf) with
  | none => .error .typeError
  | some (s, outp) =>
    match lastFlashed buf with
    | none => (join outp).map fun outbuf => ⟨outbuf, some s.appstartaddr, none⟩
    | some block =>
      let info : HeaderInfo :=
        ⟨s.familiesFound, if s.allFlagsSame then some (unpackHeader block).flags else none⟩
      if 1 < s.familiesFound.length ∧ familyid = 0 then
        (join []).map fun outbuf => ⟨outbuf, some 0, some info⟩
      else (join outp).map fun outbuf => ⟨outbuf, some s.appstartaddr, some info⟩

/-! ## What the loop makes of a file -/

/-- The address after the data. -/
def Header.ending (hd : Header) : Nat := hd.addr + hd.datalen

/-- The block starts another family than the one before it. -/
def Enters (prev hd : Header) : Prop := hd.hasFamily = true ∧ hd.familyid ≠ prev.familyid

instance (prev hd : Header) : Decidable (Enters prev hd) := inferInstanceAs (Decidable (_ ∧ _))

/-- The padding in front of a block, by the block before it. -/
def padding : Option Header → Header → Int
  | none, _ => 0
  | some prev, hd => if Enters prev hd then 0 else hd.addr - prev.ending

/-- What the loop pads. -/
def Pads (padding : Int) : Prop := 0 ≤ padding ∧ padding ≤ 10 * 1024 * 1024 ∧ padding % 4 = 0

instance (padding : Int) : Decidable (Pads padding) := inferInstanceAs (Decidable (_ ∧ _ ∧ _))

/-- All blocks have a family or none has. -/
def Coherent (hds : List Header) : Prop := ∃ flag, ∀ hd ∈ hds, hd.hasFamily = flag

/-- What a block adds to `outp`. -/
def emits (familyid : Int) (prev : Option Header) (block : Bytes) : List OutItem :=
  List.replicate (padding prev (unpackHeader block)).toNat (.int 0) ++
    if Selects familyid (unpackHeader block) then [.bytes (data block)] else []

/-- What the blocks that are flashed add to `outp`. -/
def outItems (familyid : Int) : Option Header → List Bytes → List OutItem
  | _, [] => []
  | prev, block :: blocks =>
    emits familyid prev block ++ outItems familyid (some (unpackHeader block)) blocks

/-- What a block that is flashed makes of the state. -/
def Reader.pass (familyid : Int) (s : Reader) (hd : Header) : Reader := (s.enter familyid hd).leave hd

/-- What the state keeps of the block before. -/
structure Reader.Past (s : Reader) (prev : Option Header) : Prop where
  curraddr : s.curraddr = prev.map Header.ending
  first : prev = none → s.currfamilyid = none
  family : ∀ p ∈ prev, p.hasFamily = true → s.currfamilyid = some p.familyid

section loop
variable {familyid : Int} {s s' : Reader} {prev : Option Header} {hd : Header}

theorem start_past (appstartaddr : Int) : (Reader.start appstartaddr).Past none :=
  ⟨rfl, fun _ => rfl, fun p hp => by cases hp⟩

variable (familyid) in
theorem enter_spec (hp : s.Past prev) (hk : ∀ p ∈ prev, p.hasFamily = hd.hasFamily) :
    (hd.addr : Int) - (s.enter familyid hd).curraddr.getD hd.addr = padding prev hd ∧
      (hd.hasFamily = true → (s.enter familyid hd).currfamilyid = some hd.familyid) ∧
      (s.enter familyid hd).appstartaddr =
        (if (∀ p ∈ prev, Enters p hd) ∧ (familyid = 0 ∨ familyid = hd.familyid) then (hd.addr : Int)
          else s.appstartaddr) ∧
      (s.enter familyid hd).familiesFound = s.familiesFound := by
  obtain ⟨hcurr, hnone, hfam⟩ := hp
  cases prev with
  | none =>
    simp only [Reader.enter, hcurr, hnone rfl]
    by_cases hsel : familyid = 0 ∨ familyid = hd.familyid <;>
      cases hf : hd.hasFamily <;> simp [hsel, padding, hcurr]
  | some p =>
    have hkind := hk p rfl
    cases hf : hd.hasFamily with
    | false => simp [Reader.enter, hcurr, hf, padding, Enters]
    | true =>
      have hcur := hfam p rfl (hkind.trans hf)
      by_cases he : p.familyid = hd.familyid
      · simp [Reader.enter, hcurr, hf, hcur, padding, Enters, he]
      · by_cases hsel : familyid = 0 ∨ familyid = hd.familyid <;>
          simp [Reader.enter, hcurr, hf, hcur, padding, Enters, he, Ne.symm he, hsel]

theorem leave_spec (hd : Header) (s : Reader) :
    (s.leave hd).curraddr = some hd.ending ∧ (s.leave hd).currfamilyid = s.currfamilyid ∧
      (s.leave hd).appstartaddr = s.appstartaddr ∧
      (s.leave hd).familiesFound = if hd.hasFamily = true then
        Reader.found s.familiesFound hd.familyid hd.addr else s.familiesFound := by
  cases hf : hd.hasFamily <;> cases hp : s.prevFlag <;>
    by_cases hs : s.prevFlag = some hd.flags <;> simp_all [Reader.leave, Header.ending]

variable (familyid) in
theorem pass_past (hp : s.Past prev) (hk : ∀ p ∈ prev, p.hasFamily = hd.hasFamily) :
    (s.pass familyid hd).Past (some hd) := by
  obtain ⟨-, hfam, -⟩ := enter_spec familyid hp hk
  obtain ⟨hcurr, hcurrfam, -⟩ := leave_spec hd (s.enter familyid hd)
  refine ⟨hcurr, (fun h => by cases h), fun p hp hf => ?_⟩
  cases hp
  exact hcurrfam.trans (hfam hf)

/-- The three tests of the padding. -/
theorem pads_ite {α : Type} (padding : Int) (x : Option α) :
    (if padding < 0 then none else if 10 * 1024 * 1024 < padding then none
      else if padding % 4 ≠ 0 then none else x) = if Pads padding then x else none := by
  by_cases hp : Pads padding
  · obtain ⟨h0, h10, h4⟩ := hp
    rw [if_neg (by omega), if_neg (by omega), if_neg (by omega), if_pos ⟨h0, h10, h4⟩]
  · rw [if_neg hp]
    split
    · rfl
    split
    · rfl
    split
    · rfl
    · exact absurd ⟨by omega, by omega, by omega⟩ hp

theorem reader_step_skip {block : Bytes} {o : List OutItem}
    (hn : (unpackHeader block).noFlash = true) :
    (reader familyid).step s block = some (s', o) ↔
      (unpackHeader block).Magic ∧ s' = s ∧ o = [] := by
  simp only [reader, hn]
  by_cases hm : (unpackHeader block).Magic <;> simp [hm, eq_comm]

/-- What a block that is flashed must be for the loop to go on, and what it adds. -/
theorem reader_step_pass {block : Bytes} {o : List OutItem}
    (hn : (unpackHeader block).noFlash = false) (hp : s.Past prev)
    (hk : ∀ p ∈ prev, p.hasFamily = (unpackHeader block).hasFamily) :
    (reader familyid).step s block = some (s', o) ↔
      (unpackHeader block).Magic ∧ (unpackHeader block).datalen ≤ 476 ∧
        Pads (padding prev (unpackHeader block)) ∧
        s' = s.pass familyid (unpackHeader block) ∧ o = emits familyid prev block := by
  obtain ⟨hpad, -⟩ := enter_spec familyid hp hk
  simp only [reader, hpad, pads_ite, emits, Reader.pass, hn]
  generalize unpackHeader block = hd
  by_cases hm : hd.Magic
  · by_cases hlen : hd.datalen ≤ 476
    · by_cases hpads : Pads (padding prev hd)
      · by_cases hsel : Selects familyid hd <;> simp [hm, hlen, hpads, hsel, eq_comm]
      · simp [hm, hlen, hpads]
    · simp [hm, hlen]
  · simp [hm]

theorem coherent_kind {hds : List Header} (hc : Coherent (prev.toList ++ hd :: hds)) :
    ∀ p ∈ prev, p.hasFamily = hd.hasFamily := by
  obtain ⟨flag, hall⟩ := hc
  intro p hp
  rw [hall p (by simp [Option.mem_def.mp hp]), hall hd (by simp)]

theorem coherent_next {hds : List Header} (hc : Coherent (prev.toList ++ hd :: hds)) :
    Coherent ((some hd).toList ++ hds) := by
  obtain ⟨flag, hall⟩ := hc
  exact ⟨flag, fun h hh => hall h (List.mem_append_right _ hh)⟩

theorem pads_zero : Pads 0 := by decide

theorem isChain_prev {hds : List Header} :
    (prev.toList ++ hd :: hds).IsChain (fun p hd => Pads (padding (some p) hd)) ↔
      Pads (padding prev hd) ∧
        ((some hd).toList ++ hds).IsChain (fun p hd => Pads (padding (some p) hd)) := by
  cases prev with
  | none => simp [padding, pads_zero]
  | some p => simp [List.isChain_cons_cons]

/-- The loop goes through exactly when every block is one, none is too long, and the padding
between them is one that the loop pads. -/
theorem reader_run_iff {blocks : List Bytes} {outp : List OutItem} (hp : s.Past prev)
    (hc : Coherent (prev.toList ++ (flashed blocks).map unpackHeader)) :
    (reader familyid).run s blocks = some (s', outp) ↔
      (∀ block ∈ blocks, (unpackHeader block).Magic) ∧
        (∀ block ∈ flashed blocks, (unpackHeader block).datalen ≤ 476) ∧
        (prev.toList ++ (flashed blocks).map unpackHeader).IsChain
          (fun p hd => Pads (padding (some p) hd)) ∧
        s' = ((flashed blocks).map unpackHeader).foldl (Reader.pass familyid) s ∧
        outp = outItems familyid prev (flashed blocks) := by
  induction blocks generalizing s prev outp with
  | nil => cases prev <;> simp [flashed, outItems, eq_comm]
  | cons block blocks ih =>
    rw [Machine.run_cons_iff]
    cases hn : (unpackHeader block).noFlash with
    | true =>
      have hskip : flashed (block :: blocks) = flashed blocks := by simp [flashed, hn]
      rw [hskip] at hc ⊢
      simp only [reader_step_skip hn, List.forall_mem_cons]
      refine ⟨?_, fun ⟨⟨hm, hms⟩, hrest⟩ => ?_⟩
      · rintro ⟨t, o, os, ⟨hm, rfl, rfl⟩, hrun, rfl⟩
        obtain ⟨hms, hrest⟩ := (ih hp hc).mp hrun
        exact ⟨⟨hm, hms⟩, hrest⟩
      · exact ⟨s, [], outp, ⟨hm, rfl, rfl⟩, (ih hp hc).mpr ⟨hms, hrest⟩, rfl⟩
    | false =>
      have hpass : flashed (block :: blocks) = block :: flashed blocks := by simp [flashed, hn]
      rw [hpass, List.map_cons] at hc ⊢
      have hk := coherent_kind hc
      have hnext := fun os => @ih _ _ os (pass_past familyid hp hk) (coherent_next hc)
      simp only [reader_step_pass hn hp hk, List.forall_mem_cons, isChain_prev, List.foldl_cons,
        outItems]
      refine ⟨?_, ?_⟩
      · rintro ⟨t, o, os, ⟨hm, hlen, hpads, rfl, rfl⟩, hrun, rfl⟩
        obtain ⟨hms, hlens, hchain, hs, rfl⟩ := (hnext _).mp hrun
        exact ⟨⟨hm, hms⟩, ⟨hlen, hlens⟩, ⟨hpads, hchain⟩, hs, rfl⟩
      · rintro ⟨⟨hm, hms⟩, ⟨hlen, hlens⟩, ⟨hpads, hchain⟩, hs, rfl⟩
        exact ⟨_, _, _, ⟨hm, hlen, hpads, rfl, rfl⟩, (hnext _).mpr ⟨hms, hlens, hchain, hs, rfl⟩, rfl⟩

/-! ## Joining what the loop adds -/

theorem join_append_iff {xs ys : List OutItem} {out : Bytes} :
    join (xs ++ ys) = .ok out ↔ ∃ a b, join xs = .ok a ∧ join ys = .ok b ∧ out = a ++ b := by
  induction xs generalizing out with
  | nil => simp [join, eq_comm]
  | cons x xs ih =>
    cases x with
    | int n => simp [join]
    | bytes b =>
      have hmap : ∀ (r : Except PyError Bytes) (o : Bytes),
          (r.map fun bs => b ++ bs) = .ok o ↔ ∃ bs, r = .ok bs ∧ o = b ++ bs := by
        intro r o
        cases r <;> simp [Except.map, eq_comm]
      simp only [List.cons_append, join, hmap, ih]
      refine ⟨?_, ?_⟩
      · rintro ⟨-, ⟨a, c, ha, hc, rfl⟩, rfl⟩
        exact ⟨b ++ a, c, ⟨a, ha, rfl⟩, hc, (List.append_assoc b a c).symm⟩
      · rintro ⟨-, c, ⟨a, ha, rfl⟩, hc, rfl⟩
        exact ⟨a ++ c, ⟨a, c, ha, hc, rfl⟩, List.append_assoc b a c⟩

/-- What a block adds can be joined if there is no gap in front of the block. -/
theorem join_emits {block : Bytes} {out : Bytes} (hpads : Pads (padding prev (unpackHeader block))) :
    join (emits familyid prev block) = .ok out ↔ padding prev (unpackHeader block) = 0 ∧
      out = if Selects familyid (unpackHeader block) then data block else [] := by
  obtain ⟨h0, -, -⟩ := hpads
  unfold emits
  cases hn : (padding prev (unpackHeader block)).toNat with
  | zero =>
    have hzero : padding prev (unpackHeader block) = 0 := by omega
    split <;> simp [join, Except.map, hzero, eq_comm]
  | succ n =>
    refine iff_of_false ?_ (by omega)
    simp [List.replicate_succ, join]

/-- The blocks follow each other without a gap, but where another family starts. -/
def Adjacent (hds : List Header) : Prop := hds.IsChain fun p hd => padding (some p) hd = 0

theorem join_outItems {blocks : List Bytes} {out : Bytes}
    (hchain : (prev.toList ++ blocks.map unpackHeader).IsChain
      fun p hd => Pads (padding (some p) hd)) :
    join (outItems familyid prev blocks) = .ok out ↔
      Adjacent (prev.toList ++ blocks.map unpackHeader) ∧
        out = (blocks.filter fun block => Selects familyid (unpackHeader block)).flatMap data := by
  induction blocks generalizing prev out with
  | nil => cases prev <;> simp [outItems, join, Adjacent, eq_comm]
  | cons block blocks ih =>
    obtain ⟨hpads, hrest⟩ := isChain_prev.mp hchain
    have hadj : Adjacent (prev.toList ++ (block :: blocks).map unpackHeader) ↔
        padding prev (unpackHeader block) = 0 ∧
          Adjacent ((some (unpackHeader block)).toList ++ blocks.map unpackHeader) := by
      cases prev <;> simp [Adjacent, padding, List.isChain_cons_cons]
    simp only [outItems, join_append_iff, join_emits hpads, ih hrest, hadj]
    have hfilter : ((block :: blocks).filter fun block => Selects familyid (unpackHeader block)).flatMap
        data = (if Selects familyid (unpackHeader block) then data block else []) ++
          (blocks.filter fun block => Selects familyid (unpackHeader block)).flatMap data := by
      by_cases hsel : Selects familyid (unpackHeader block) <;> simp [hsel]
    rw [hfilter]
    refine ⟨?_, ?_⟩
    · rintro ⟨a, b, ⟨h0, rfl⟩, ⟨hadj, rfl⟩, rfl⟩
      exact ⟨⟨h0, hadj⟩, rfl⟩
    · rintro ⟨⟨h0, hadj⟩, rfl⟩
      exact ⟨_, _, ⟨h0, rfl⟩, ⟨hadj, rfl⟩, rfl⟩

end loop

/-! ## What is printed of a file -/

/-- The addresses of the blocks of a family. -/
def familyAddrs (hds : List Header) (family : Nat) : Set Nat :=
  { a | ∃ hd ∈ hds, hd.hasFamily = true ∧ hd.familyid = family ∧ hd.addr = a }

/-- Each family once, with the lowest address of its blocks. -/
structure ListsFamilies (families : List (Nat × Nat)) (hds : List Header) : Prop where
  nodup : (families.map Prod.fst).Nodup
  lowest : ∀ family a, (family, a) ∈ families ↔ IsLeast (familyAddrs hds family) a

section info
variable {familyid : Int} {s : Reader} {hd : Header} {hds : List Header}
  {families : List (Nat × Nat)}

theorem familyAddrs_snoc (family : Nat) :
    familyAddrs (hds ++ [hd]) family =
      if hd.hasFamily = true ∧ hd.familyid = family then insert hd.addr (familyAddrs hds family)
      else familyAddrs hds family := by
  ext a
  by_cases h : hd.hasFamily = true ∧ hd.familyid = family
  · simp only [familyAddrs, if_pos h, Set.mem_ofPred_eq, Set.mem_insert_iff, List.mem_append,
      List.mem_singleton]
    refine ⟨?_, ?_⟩
    · rintro ⟨hd', hmem | rfl, hf, hid, rfl⟩
      · exact .inr ⟨hd', hmem, hf, hid, rfl⟩
      · exact .inl rfl
    · rintro (rfl | ⟨hd', hmem, hrest⟩)
      · exact ⟨hd, .inr rfl, h.1, h.2, rfl⟩
      · exact ⟨hd', .inl hmem, hrest⟩
  · simp only [familyAddrs, if_neg h, Set.mem_ofPred_eq, List.mem_append, List.mem_singleton]
    refine ⟨?_, fun ⟨hd', hmem, hrest⟩ => ⟨hd', .inl hmem, hrest⟩⟩
    rintro ⟨hd', hmem | rfl, hf, hid, ha⟩
    · exact ⟨hd', hmem, hf, hid, ha⟩
    · exact absurd ⟨hf, hid⟩ h

/-- A family that is there already keeps its place, with the lower of the two addresses. -/
theorem found_keys (families : List (Nat × Nat)) (family a : Nat) :
    (Reader.found families family a).map Prod.fst =
      if family ∈ families.map Prod.fst then families.map Prod.fst
      else families.map Prod.fst ++ [family] := by
  have hany : (families.any (·.1 == family)) = true ↔ family ∈ families.map Prod.fst := by
    simp only [List.any_eq_true, beq_iff_eq, List.mem_map]
  unfold Reader.found
  by_cases h : family ∈ families.map Prod.fst
  · rw [if_pos (hany.mpr h), if_pos h, List.map_map]
    refine List.map_congr_left fun f _ => ?_
    by_cases hf : f.1 = family ∧ a < f.2
    · rw [Function.comp_apply, if_pos hf, hf.1]
    · rw [Function.comp_apply, if_neg hf]
  · rw [if_neg (mt hany.mp h), if_neg h, List.map_append]
    rfl

theorem mem_found {family a k b : Nat} :
    (k, b) ∈ Reader.found families family a ↔
      if k = family then
        (∃ old, (family, old) ∈ families ∧ b = min old a) ∨
          (family ∉ families.map Prod.fst ∧ b = a)
      else (k, b) ∈ families := by
  have hany : (families.any (·.1 == family)) = true ↔ family ∈ families.map Prod.fst := by
    simp only [List.any_eq_true, beq_iff_eq, List.mem_map]
  have hmem : ∀ {old}, (family, old) ∈ families → family ∈ families.map Prod.fst :=
    fun h => List.mem_map.mpr ⟨_, h, rfl⟩
  unfold Reader.found
  by_cases h : family ∈ families.map Prod.fst
  · rw [if_pos (hany.mpr h), List.mem_map]
    by_cases hk : k = family
    · subst hk
      simp only [if_true, h, not_true_eq_false, false_and, or_false]
      refine ⟨?_, ?_⟩
      · rintro ⟨⟨k', old⟩, hf, he⟩
        dsimp only at he
        split at he
        · rename_i hlt
          obtain ⟨rfl, hlt⟩ := hlt
          cases he
          exact ⟨old, hf, by omega⟩
        · rename_i hlt
          cases he
          exact ⟨b, hf, by simp only [true_and] at hlt; omega⟩
      · rintro ⟨old, hf, rfl⟩
        refine ⟨(k, old), hf, ?_⟩
        by_cases hlt : a < old
        · rw [if_pos ⟨rfl, hlt⟩, Nat.min_eq_right (by omega)]
        · rw [if_neg fun h => hlt h.2, Nat.min_eq_left (by omega)]
    · rw [if_neg hk]
      refine ⟨?_, fun hf => ⟨(k, b), hf, if_neg fun h => hk h.1⟩⟩
      rintro ⟨f, hf, he⟩
      split at he
      · cases he
        exact absurd rfl hk
      · exact he ▸ hf
  · rw [if_neg (mt hany.mp h), List.mem_append, List.mem_singleton, Prod.mk.injEq]
    by_cases hk : k = family
    · subst hk
      have hnone : ∀ old, (k, old) ∉ families := fun old hf => h (hmem hf)
      simp [hnone, h]
    · simp [hk]

/-- A block of a family is counted. -/
theorem ListsFamilies.found (h : ListsFamilies families hds) (hf : hd.hasFamily = true) :
    ListsFamilies (Reader.found families hd.familyid hd.addr) (hds ++ [hd]) := by
  refine ⟨?_, fun family a => ?_⟩
  · rw [found_keys]
    split
    · exact h.nodup
    · rename_i hnew
      refine List.nodup_append.mpr ⟨h.nodup, by simp, fun x hx y hy he => hnew ?_⟩
      rw [← List.mem_singleton.mp hy, ← he]
      exact hx
  · rw [mem_found, familyAddrs_snoc]
    by_cases hfam : family = hd.familyid
    · subst hfam
      rw [if_pos rfl, if_pos ⟨hf, rfl⟩]
      by_cases hkey : hd.familyid ∈ families.map Prod.fst
      · obtain ⟨⟨k, old⟩, hmem, rfl⟩ := List.mem_map.mp hkey
        have hold := (h.lowest _ _).mp hmem
        have hnew := IsLeast.insert hd.addr hold
        refine ⟨?_, fun ha => .inl ⟨old, hmem, ?_⟩⟩
        · rintro (⟨old', hmem', rfl⟩ | ⟨hno, -⟩)
          · rw [((h.lowest _ _).mp hmem').unique hold, min_comm]
            exact hnew
          · exact absurd hkey hno
        · rw [ha.unique hnew, min_comm]
      · have hempty : familyAddrs hds hd.familyid = ∅ := by
          refine Set.eq_empty_of_forall_notMem fun a ha => hkey ?_
          classical
          have hleast := Set.Nonempty.isLeast_natFind ⟨a, ha⟩
          exact List.mem_map.mpr ⟨_, (h.lowest _ _).mpr hleast, rfl⟩
        rw [hempty]
        refine ⟨?_, fun ha => .inr ⟨hkey, ?_⟩⟩
        · rintro (⟨old, hmem, -⟩ | ⟨-, rfl⟩)
          · exact absurd (List.mem_map.mpr ⟨_, hmem, rfl⟩) hkey
          · simp
        · simpa using ha.1
    · rw [if_neg hfam, if_neg fun h => hfam h.2.symm]
      exact h.lowest family a

theorem ListsFamilies.skip (h : ListsFamilies families hds) (hf : hd.hasFamily = false) :
    ListsFamilies families (hds ++ [hd]) := by
  refine ⟨h.nodup, fun family a => ?_⟩
  rw [familyAddrs_snoc, if_neg fun hc => by rw [hf] at hc; cases hc.1]
  exact h.lowest family a

/-- What a block makes of the families and the flags. -/
theorem pass_info (familyid : Int) (s : Reader) (hd : Header) :
    (s.pass familyid hd).familiesFound = (if hd.hasFamily = true then
        Reader.found s.familiesFound hd.familyid hd.addr else s.familiesFound) ∧
      (s.pass familyid hd).prevFlag = some (s.prevFlag.getD hd.flags) ∧
      (s.pass familyid hd).allFlagsSame =
        (s.allFlagsSame && s.prevFlag.getD hd.flags == hd.flags) := by
  have henter : ∀ t : Reader, t = s.enter familyid hd → t.familiesFound = s.familiesFound ∧
      t.prevFlag = s.prevFlag ∧ t.allFlagsSame = s.allFlagsSame := by
    rintro t rfl
    unfold Reader.enter
    dsimp only
    split_ifs <;> exact ⟨rfl, rfl, rfl⟩
  obtain ⟨hfam, hflag, hsame⟩ := henter _ rfl
  rw [← hfam, ← hflag, ← hsame, Reader.pass]
  generalize s.enter familyid hd = t
  cases hf : hd.hasFamily <;> cases hp : t.prevFlag with
  | none => simp [Reader.leave, hf, hp]
  | some flag => by_cases hs : flag = hd.flags <;> simp [Reader.leave, hf, hp, hs]

theorem lists_foldl {done : List Header} (h : ListsFamilies s.familiesFound done) :
    ListsFamilies (hds.foldl (Reader.pass familyid) s).familiesFound (done ++ hds) := by
  induction hds generalizing s done with
  | nil => simpa using h
  | cons hd hds ih =>
    rw [List.foldl_cons, List.append_cons]
    refine ih ?_
    rw [(pass_info familyid s hd).1]
    cases hf : hd.hasFamily with
    | true => exact h.found hf
    | false => exact h.skip hf

theorem flags_foldl {flag : Nat} (h : s.prevFlag = some flag) :
    (hds.foldl (Reader.pass familyid) s).allFlagsSame = true ↔
      s.allFlagsSame = true ∧ ∀ hd ∈ hds, hd.flags = flag := by
  induction hds generalizing s with
  | nil => simp
  | cons hd hds ih =>
    obtain ⟨-, hflag, hsame⟩ := pass_info familyid s hd
    rw [h, Option.getD_some] at hflag hsame
    rw [List.foldl_cons, ih hflag, hsame, Bool.and_eq_true, beq_iff_eq, List.forall_mem_cons,
      and_assoc, eq_comm (a := flag)]

end info

end ThreadSwitch.Uf2
