import Mathlib.Data.List.Chain
import ThreadSwitch.Uf2.FromUf2

/-!
# Which files are converted, and to what

- `one_family_iff`: a file of one family is converted exactly when its blocks follow each
  other without a gap; what comes out, put at its start address, is what flashing the
  file writes.
- `family_iff`: of a file of several families, the blocks of the one asked for come out.
- `all_families`: with none asked for, nothing comes out.
- `info_iff`: what is printed of a file.
-/

namespace ThreadSwitch.Uf2

open ThreadSwitch.Lib

/-- The headers of the blocks that are flashed. -/
def flashHeaders (buf : Bytes) : List Header := (flashBlocks buf).map unpackHeader

/-- Every block is one, and none that is flashed is too long. -/
structure Readable (buf : Bytes) : Prop where
  magic : ∀ block ∈ chunks 512 buf, (unpackHeader block).Magic
  size : ∀ block ∈ flashBlocks buf, (unpackHeader block).datalen ≤ 476

/-- The state after the loop. -/
def lastState (familyid appstartaddr : Int) (buf : Bytes) : Reader :=
  (flashHeaders buf).foldl (Reader.pass familyid) (Reader.start appstartaddr)

/-- What is printed at the last block. -/
def printed (familyid appstartaddr : Int) (buf block : Bytes) : HeaderInfo :=
  let s := lastState familyid appstartaddr buf
  ⟨s.familiesFound, if s.allFlagsSame then some (unpackHeader block).flags else none⟩

section
variable {familyid appstartaddr : Int} {buf : Bytes} {r : Converted}

theorem loop_iff {s : Reader} {outp : List OutItem} (hc : Coherent (flashHeaders buf)) :
    (reader familyid).run (Reader.start appstartaddr) (chunks 512 buf) = some (s, outp) ↔
      Readable buf ∧ (flashHeaders buf).IsChain (fun p hd => Pads (padding (some p) hd)) ∧
        s = lastState familyid appstartaddr buf ∧
        outp = outItems familyid none (flashBlocks buf) := by
  rw [reader_run_iff (start_past appstartaddr) hc]
  refine ⟨?_, ?_⟩
  · rintro ⟨hm, hlen, hchain, hs, ho⟩
    exact ⟨⟨hm, hlen⟩, hchain, hs, ho⟩
  · rintro ⟨⟨hm, hlen⟩, hchain, hs, ho⟩
    exact ⟨hm, hlen, hchain, hs, ho⟩

theorem join_flashBlocks {out : Bytes}
    (hchain : (flashHeaders buf).IsChain fun p hd => Pads (padding (some p) hd)) :
    join (outItems familyid none (flashBlocks buf)) = .ok out ↔
      Adjacent (flashHeaders buf) ∧ out = ((flashBlocks buf).filter
        fun block => Selects familyid (unpackHeader block)).flatMap data :=
  @join_outItems familyid none (flashBlocks buf) out hchain

theorem map_eq_ok_iff {α β : Type} {x : Except PyError α} {f : α → β} {b : β} :
    x.map f = .ok b ↔ ∃ a, x = .ok a ∧ b = f a := by
  cases x <;> simp [Except.map, eq_comm]

/-- What comes out of a file whose blocks all have a family or all have none. -/
theorem convertFromUf2_iff (hc : Coherent (flashHeaders buf)) :
    convertFromUf2 familyid appstartaddr buf = .ok r ↔
      Readable buf ∧ (flashHeaders buf).IsChain (fun p hd => Pads (padding (some p) hd)) ∧
        r.info = (lastFlashed buf).map (printed familyid appstartaddr buf) ∧
        if (lastFlashed buf).isSome = true ∧
            1 < (lastState familyid appstartaddr buf).familiesFound.length ∧ familyid = 0 then
          r.outbuf = [] ∧ r.appstartaddr = some 0
        else
          Adjacent (flashHeaders buf) ∧
            r.outbuf = ((flashBlocks buf).filter
              fun block => Selects familyid (unpackHeader block)).flatMap data ∧
            r.appstartaddr = some (lastState familyid appstartaddr buf).appstartaddr := by
  obtain ⟨outbuf, start, info⟩ := r
  have hloop := fun s outp =>
    @loop_iff familyid appstartaddr buf s outp hc
  rw [convertFromUf2]
  cases hrun : (reader familyid).run (Reader.start appstartaddr) (chunks 512 buf) with
  | none =>
    refine iff_of_false (by simp) ?_
    rintro ⟨hread, hchain, -⟩
    have hrun' := (hloop _ _).mpr ⟨hread, hchain, rfl, rfl⟩
    rw [hrun] at hrun'
    cases hrun'
  | some q =>
    obtain ⟨s, outp⟩ := q
    obtain ⟨hread, hchain, rfl, rfl⟩ := (hloop _ _).mp hrun
    cases hlast : lastFlashed buf with
    | none =>
      simp only [map_eq_ok_iff, join_flashBlocks hchain, Converted.mk.injEq, hread, hchain]
      simp only [Option.isSome_none, Bool.false_eq_true, false_and, if_false, true_and]
      refine ⟨?_, ?_⟩
      · rintro ⟨_, ⟨hadj, rfl⟩, rfl, rfl, rfl⟩
        exact ⟨rfl, hadj, rfl, rfl⟩
      · rintro ⟨rfl, hadj, rfl, rfl⟩
        exact ⟨_, ⟨hadj, rfl⟩, rfl, rfl, rfl⟩
    | some block =>
      simp only [Option.isSome_some, true_and, hread, hchain]
      split
      · simp only [map_eq_ok_iff, join, Converted.mk.injEq]
        refine ⟨?_, ?_⟩
        · rintro ⟨_, hjoin, rfl, rfl, rfl⟩
          cases hjoin
          exact ⟨rfl, rfl, rfl⟩
        · rintro ⟨rfl, rfl, rfl⟩
          exact ⟨[], rfl, rfl, rfl, rfl⟩
      · simp only [map_eq_ok_iff, join_flashBlocks hchain, Converted.mk.injEq]
        refine ⟨?_, ?_⟩
        · rintro ⟨_, ⟨hadj, rfl⟩, rfl, rfl, rfl⟩
          exact ⟨rfl, hadj, rfl, rfl⟩
        · rintro ⟨rfl, hadj, rfl, rfl⟩
          exact ⟨_, ⟨hadj, rfl⟩, rfl, rfl, rfl⟩

end

/-! ## Files of one family -/

/-- All blocks are of one family, or none has a family. -/
def OneFamily (hds : List Header) : Prop :=
  ∃ flag family, ∀ hd ∈ hds, hd.hasFamily = flag ∧ (flag = true → hd.familyid = family)

theorem OneFamily.coherent {hds : List Header} (h : OneFamily hds) : Coherent hds := by
  obtain ⟨flag, family, hall⟩ := h
  exact ⟨flag, fun hd hmem => (hall hd hmem).1⟩

theorem OneFamily.not_enters {hds : List Header} (h : OneFamily hds) {p hd : Header} (hp : p ∈ hds)
    (hhd : hd ∈ hds) : ¬ Enters p hd := by
  obtain ⟨flag, family, hall⟩ := h
  rintro ⟨hf, hne⟩
  obtain ⟨hflag, hfam⟩ := hall hd hhd
  have htrue : flag = true := hflag.symm.trans hf
  exact hne ((hfam htrue).trans ((hall p hp).2 htrue).symm)

/-- Without another family to start, the blocks follow each other without a gap. -/
theorem OneFamily.adjacent_iff {hds : List Header} (h : OneFamily hds) :
    Adjacent hds ↔ hds.IsChain fun p hd => hd.addr = p.ending := by
  refine List.IsChain.iff_of_mem_imp fun p hd hp hhd => ?_
  rw [padding, if_neg (h.not_enters hp hhd)]
  omega

/-- Where the file starts: at its first block, if that is of the family asked for. -/
def startAddr (familyid appstartaddr : Int) (hds : List Header) : Int :=
  match hds with
  | [] => appstartaddr
  | hd :: _ => if familyid = 0 ∨ familyid = hd.familyid then hd.addr else appstartaddr

section
variable {familyid appstartaddr : Int} {buf : Bytes} {hds : List Header}

theorem foldl_appstartaddr {s : Reader} {p : Header} (hp : s.Past (some p))
    (h : OneFamily (p :: hds)) :
    (hds.foldl (Reader.pass familyid) s).appstartaddr = s.appstartaddr := by
  induction hds generalizing s p with
  | nil => rfl
  | cons hd hds ih =>
    have hk : ∀ q ∈ some p, q.hasFamily = hd.hasFamily := coherent_kind h.coherent
    have hne : ¬ Enters p hd := h.not_enters (by simp) (by simp)
    have hrest : OneFamily (hd :: hds) := by
      obtain ⟨flag, family, hall⟩ := h
      exact ⟨flag, family, fun hd' hmem => hall hd' (List.mem_cons_of_mem _ hmem)⟩
    rw [List.foldl_cons, ih (pass_past familyid hp hk) hrest, Reader.pass,
      (leave_spec hd (s.enter familyid hd)).2.2.1, (enter_spec familyid hp hk).2.2.1, if_neg]
    exact fun hc => hne (hc.1 p rfl)

theorem lastState_appstartaddr (h : OneFamily (flashHeaders buf)) :
    (lastState familyid appstartaddr buf).appstartaddr =
      startAddr familyid appstartaddr (flashHeaders buf) := by
  rw [lastState]
  cases hh : flashHeaders buf with
  | nil => rfl
  | cons hd hds =>
    rw [hh] at h
    have hp := start_past appstartaddr
    have hk : ∀ p ∈ (none : Option Header), p.hasFamily = hd.hasFamily := fun p hp => by cases hp
    rw [List.foldl_cons, foldl_appstartaddr (pass_past familyid hp hk) h, Reader.pass,
      (leave_spec hd _).2.2.1, (enter_spec familyid hp hk).2.2.1]
    simp [startAddr, Reader.start]

/-- What is found are the families of the blocks. -/
theorem lastState_lists :
    ListsFamilies (lastState familyid appstartaddr buf).familiesFound (flashHeaders buf) := by
  have hstart : ListsFamilies (Reader.start appstartaddr).familiesFound [] :=
    ⟨List.nodup_nil, fun family a => by simp [Reader.start, familyAddrs, IsLeast]⟩
  exact lists_foldl hstart

theorem lastState_one (h : OneFamily (flashHeaders buf)) :
    (lastState familyid appstartaddr buf).familiesFound.length ≤ 1 := by
  obtain ⟨flag, family, hall⟩ := h
  have hlists : ListsFamilies (lastState familyid appstartaddr buf).familiesFound
    (flashHeaders buf) := lastState_lists
  have hsame : ∀ k ∈ (lastState familyid appstartaddr buf).familiesFound.map Prod.fst,
      k = family := by
    intro k hk
    obtain ⟨⟨k, a⟩, hmem, rfl⟩ := List.mem_map.mp hk
    obtain ⟨⟨hd, hhd, hf, hid, -⟩, -⟩ := (hlists.lowest _ _).mp hmem
    obtain ⟨hflag, hfam⟩ := hall hd hhd
    exact hid.symm.trans (hfam (hflag.symm.trans hf))
  have hrep := List.eq_replicate_of_mem hsame
  have hnodup := hlists.nodup
  rw [hrep, List.nodup_replicate, List.length_map] at hnodup
  exact hnodup

theorem Adjacent.pads (h : Adjacent hds) :
    hds.IsChain fun p hd => Pads (padding (some p) hd) :=
  List.IsChain.imp (fun _ _ h0 => by rw [h0]; exact pads_zero) h

/-- **A file of one family is converted exactly when there is no gap in it**: every block is
one, none is too long, and each starts where the one before it ends. The data of the blocks
comes out if their family is the one asked for, or none is. -/
theorem one_family_iff {outbuf : Bytes} {start : Int} (h : OneFamily (flashHeaders buf)) :
    (∃ info, convertFromUf2 familyid appstartaddr buf = .ok ⟨outbuf, some start, info⟩) ↔
      Readable buf ∧ (flashHeaders buf).IsChain (fun p hd => hd.addr = p.ending) ∧
        outbuf = ((flashBlocks buf).filter
          fun block => Selects familyid (unpackHeader block)).flatMap data ∧
        start = startAddr familyid appstartaddr (flashHeaders buf) := by
  have hone : ¬ ((lastFlashed buf).isSome = true ∧
      1 < (lastState familyid appstartaddr buf).familiesFound.length ∧ familyid = 0) := fun hc =>
    absurd hc.2.1 (Nat.not_lt.mpr (lastState_one h))
  simp only [convertFromUf2_iff h.coherent, if_neg hone, lastState_appstartaddr h,
    Option.some.injEq, ← h.adjacent_iff]
  refine ⟨?_, ?_⟩
  · rintro ⟨info, hread, -, -, hadj, hout, hstart⟩
    exact ⟨hread, hadj, hout, hstart⟩
  · rintro ⟨hread, hadj, hout, hstart⟩
    exact ⟨_, hread, hadj.pads, rfl, hadj, hout, hstart⟩

theorem length_data {block : Bytes} (hb : block ∈ flashBlocks buf) (hread : Readable buf) :
    (data block).length = (unpackHeader block).datalen := by
  have hlen : block.length = 512 := length_of_mem_chunks (List.mem_of_mem_filter hb)
  have hsize := hread.size block hb
  rw [data, List.length_take, List.length_drop]
  omega

/-- Blocks that follow each other put their data down as one. -/
theorem contents_of_chain {block : Bytes} {blocks : List Bytes} (hread : Readable buf)
    (hblocks : flashBlocks buf = block :: blocks)
    (hchain : (flashHeaders buf).IsChain fun p hd => hd.addr = p.ending) :
    placed (unpackHeader block).addr ((flashBlocks buf).flatMap data) = contents buf := by
  have hlen : ∀ b ∈ block :: blocks, (data b).length = (unpackHeader b).datalen :=
    fun b hb => length_data (hblocks ▸ hb) hread
  have hpairs : ((block :: blocks).map fun b => ((unpackHeader b).addr, data b)).IsChain
      fun p q => q.1 = p.1 + p.2.length := by
    rw [flashHeaders, hblocks, List.isChain_map] at hchain
    rw [List.isChain_map]
    refine (List.IsChain.iff_of_mem_imp fun p q hp _ => ?_).mp hchain
    rw [hlen p hp, Header.ending]
  have hplaced := placed_flatMap hpairs
  rw [← List.map_cons (f := fun b => ((unpackHeader b).addr, data b)), List.flatMap_map, List.flatMap_map] at hplaced
  rw [contents, hblocks]
  exact hplaced

/-- **What comes out is what flashing the file writes**: a file of one family is converted
exactly when there is no gap in it, to the binary that, put at the address of the first
block, makes the same writes as the blocks. -/
theorem one_family_contents {outbuf : Bytes} {start : Int} {block : Bytes} {blocks : List Bytes}
    (h : OneFamily (flashHeaders buf)) (hblocks : flashBlocks buf = block :: blocks) :
    (∃ info, convertFromUf2 0 appstartaddr buf = .ok ⟨outbuf, some start, info⟩) ↔
      Readable buf ∧ (flashHeaders buf).IsChain (fun p hd => hd.addr = p.ending) ∧
        start = (unpackHeader block).addr ∧
        placed (unpackHeader block).addr outbuf = contents buf := by
  have hall : ((flashBlocks buf).filter fun block => Selects 0 (unpackHeader block)) =
      flashBlocks buf := by simp [Selects]
  have hstart : startAddr 0 appstartaddr (flashHeaders buf) = (unpackHeader block).addr := by
    rw [flashHeaders, hblocks]
    simp [startAddr]
  rw [one_family_iff h, hall, hstart]
  refine ⟨?_, ?_⟩
  · rintro ⟨hread, hchain, rfl, hs⟩
    exact ⟨hread, hchain, hs, contents_of_chain hread hblocks hchain⟩
  · rintro ⟨hread, hchain, hs, hout⟩
    rw [← contents_of_chain hread hblocks hchain] at hout
    exact ⟨hread, hchain, placed_injective hout, hs⟩

end

/-- A block without a number, as another program may make it. -/
def looseBlock (flags addr familyid : Nat) (bytes : Bytes) : Bytes :=
  [uf2MagicStart0, uf2MagicStart1, flags, addr, bytes.length, 0, 0, familyid].flatMap (toLE 4) ++
    bytes ++ List.replicate (476 - bytes.length) 0 ++ toLE 4 uf2MagicEnd

theorem one_family_contents_two :
    ∃ info, convertFromUf2 0 0
        (looseBlock 0x2000 0x1000 7 [1, 2, 3, 4] ++ looseBlock 0x2000 0x1004 7 [5, 6]) =
      .ok ⟨[1, 2, 3, 4, 5, 6], some 0x1000, info⟩ :=
  (@one_family_contents _ _ _ _ (looseBlock 0x2000 0x1000 7 [1, 2, 3, 4])
    [looseBlock 0x2000 0x1004 7 [5, 6]] ⟨true, 7, by decide +kernel⟩ (by decide +kernel)).mpr
    ⟨⟨by decide +kernel, by decide +kernel⟩, by decide +kernel, by decide +kernel, by decide +kernel⟩

/-! ## Files of several families -/

section
variable {familyid appstartaddr : Int} {buf : Bytes}

/-- **Of several families, the one asked for comes out**: the file is converted exactly when
every block is one, none is too long, and the blocks of a family that come after each other
leave no gap; the data of the family's blocks comes out, and nothing else. -/
theorem family_iff {outbuf : Bytes} (hne : familyid ≠ 0)
    (hf : ∀ hd ∈ flashHeaders buf, hd.hasFamily = true) :
    (∃ start info, convertFromUf2 familyid appstartaddr buf = .ok ⟨outbuf, start, info⟩) ↔
      Readable buf ∧
        (flashHeaders buf).IsChain (fun p hd => hd.familyid = p.familyid → hd.addr = p.ending) ∧
        outbuf = ((flashBlocks buf).filter
          fun block => ((unpackHeader block).familyid : Int) = familyid).flatMap data := by
  have hadj : Adjacent (flashHeaders buf) ↔ (flashHeaders buf).IsChain
      fun p hd => hd.familyid = p.familyid → hd.addr = p.ending := by
    refine List.IsChain.iff_of_mem_imp fun p hd _ hhd => ?_
    have hflag := hf hd hhd
    by_cases hsame : hd.familyid = p.familyid
    · rw [padding, if_neg fun he => he.2 hsame]
      simp only [hsame, true_imp_iff]
      omega
    · rw [padding, if_pos ⟨hflag, hsame⟩]
      simp [hsame]
  have hsel : ((flashBlocks buf).filter fun block => Selects familyid (unpackHeader block)) =
      (flashBlocks buf).filter fun block => ((unpackHeader block).familyid : Int) = familyid := by
    refine List.filter_congr fun block hb => ?_
    have hflag := hf _ (List.mem_map_of_mem hb)
    simp [Selects, hne, hflag, eq_comm]
  have hno : ¬ ((lastFlashed buf).isSome = true ∧
      1 < (lastState familyid appstartaddr buf).familiesFound.length ∧ familyid = 0) :=
    fun hc => hne hc.2.2
  simp only [convertFromUf2_iff ⟨true, hf⟩, if_neg hno, ← hadj, hsel]
  refine ⟨?_, ?_⟩
  · rintro ⟨start, info, hread, -, -, hadj, hout, -⟩
    exact ⟨hread, hadj, hout⟩
  · rintro ⟨hread, hadj, hout⟩
    exact ⟨_, _, hread, hadj.pads, rfl, hadj, hout, rfl⟩

/-- A block for each of two families. -/
@[irreducible]
def twoFamilies : Bytes :=
  looseBlock 0x2000 0x1000 7 [1, 2, 3, 4] ++ looseBlock 0x2000 0x8000 9 [5, 6]

theorem family_iff_two :
    ∃ start info, convertFromUf2 9 0 twoFamilies = .ok ⟨[5, 6], start, info⟩ :=
  (family_iff (by decide) (by decide +kernel)).mpr
    ⟨⟨by decide +kernel, by decide +kernel⟩, by decide +kernel, by decide +kernel⟩

theorem lastState_two {p hd : Header} (hp : p ∈ flashHeaders buf) (hhd : hd ∈ flashHeaders buf)
    (hpf : p.hasFamily = true) (hhf : hd.hasFamily = true) (hne : p.familyid ≠ hd.familyid) :
    1 < (lastState familyid appstartaddr buf).familiesFound.length := by
  have hlists : ListsFamilies (lastState familyid appstartaddr buf).familiesFound
    (flashHeaders buf) := lastState_lists
  have hmem : ∀ h ∈ flashHeaders buf, h.hasFamily = true →
      ∃ a, (h.familyid, a) ∈ (lastState familyid appstartaddr buf).familiesFound := by
    intro h hh hf
    have hsome : (familyAddrs (flashHeaders buf) h.familyid).Nonempty := ⟨h.addr, h, hh, hf, rfl, rfl⟩
    classical
    exact ⟨_, (hlists.lowest _ _).mpr hsome.isLeast_natFind⟩
  obtain ⟨a, ha⟩ := hmem p hp hpf
  obtain ⟨b, hb⟩ := hmem hd hhd hhf
  by_contra hlen
  obtain ⟨f, hf⟩ := List.length_eq_one_iff.mp
    (Nat.le_antisymm (Nat.le_of_not_lt hlen) (List.length_pos_of_mem ha))
  rw [hf, List.mem_singleton] at ha hb
  exact hne (congrArg Prod.fst (ha.trans hb.symm))

/-- **With no family asked for, nothing comes out of a file of several families**, unless its
last block is not flashed: then the data of all its blocks comes out. -/
theorem all_families {r : Converted} {p hd : Header}
    (hf : ∀ h ∈ flashHeaders buf, h.hasFamily = true) (hp : p ∈ flashHeaders buf)
    (hhd : hd ∈ flashHeaders buf) (hne : p.familyid ≠ hd.familyid)
    (hr : convertFromUf2 0 appstartaddr buf = .ok r) :
    if (lastFlashed buf).isSome = true then r.outbuf = [] ∧ r.appstartaddr = some 0
    else r.outbuf = (flashBlocks buf).flatMap data := by
  have htwo : 1 < (lastState 0 appstartaddr buf).familiesFound.length :=
    lastState_two hp hhd (hf p hp) (hf hd hhd) hne
  obtain ⟨-, -, -, hout⟩ := (convertFromUf2_iff ⟨true, hf⟩).mp hr
  split
  · rename_i hlast
    rwa [if_pos ⟨hlast, htwo, rfl⟩] at hout
  · rename_i hlast
    rw [if_neg fun hc => hlast hc.1] at hout
    simpa [Selects] using hout.2.1

theorem all_families_two :
    ∃ r, convertFromUf2 0 0 twoFamilies = .ok r ∧
      if (lastFlashed twoFamilies).isSome = true then r.outbuf = [] ∧ r.appstartaddr = some 0
      else r.outbuf = (flashBlocks twoFamilies).flatMap data := by
  have hr : ∃ r, convertFromUf2 0 0 twoFamilies = .ok r := by
    refine ⟨⟨[], some 0, some ⟨[(7, 0x1000), (9, 0x8000)], some 0x2000⟩⟩, ?_⟩
    decide +kernel
  obtain ⟨r, hr⟩ := hr
  have hfirst : unpackHeader (looseBlock 0x2000 0x1000 7 [1, 2, 3, 4]) ∈ flashHeaders twoFamilies := by
    decide +kernel
  have hsecond : unpackHeader (looseBlock 0x2000 0x8000 9 [5, 6]) ∈ flashHeaders twoFamilies := by
    decide +kernel
  exact ⟨r, hr, all_families (by decide +kernel) hfirst hsecond (by decide +kernel) hr⟩

end

/-! ## What is printed -/

section
variable {familyid appstartaddr : Int} {buf : Bytes}

/-- Whatever the blocks, those that are flashed make the state. -/
theorem reader_step_state {s s' : Reader} {block : Bytes} {o : List OutItem}
    (h : (reader familyid).step s block = some (s', o)) :
    s' = if (unpackHeader block).noFlash then s else s.pass familyid (unpackHeader block) := by
  simp only [reader] at h
  split at h
  · cases h
  split at h
  · rename_i hn
    cases h
    rw [if_pos hn]
  split at h
  · cases h
  rename_i hn _
  rw [pads_ite] at h
  split at h
  · cases h
    rw [if_neg hn]
    rfl
  · cases h

theorem reader_run_state {s s' : Reader} {blocks : List Bytes} {o : List OutItem}
    (h : (reader familyid).run s blocks = some (s', o)) :
    s' = ((flashed blocks).map unpackHeader).foldl (Reader.pass familyid) s := by
  refine Machine.run_induct (motive := fun blocks _ s' =>
    s' = ((flashed blocks).map unpackHeader).foldl (Reader.pass familyid) s) rfl ?_ h
  intro blocks _ t block o u _ ih hs
  rw [reader_step_state hs, ih, flashed, flashed, List.filter_append, List.map_append,
    List.foldl_append]
  cases hn : (unpackHeader block).noFlash <;> simp [hn]

theorem lastState_flags {block : Bytes} (hlast : lastFlashed buf = some block) :
    (lastState familyid appstartaddr buf).allFlagsSame = true ↔
      ∀ hd ∈ flashHeaders buf, hd.flags = (unpackHeader block).flags := by
  have hmem : unpackHeader block ∈ flashHeaders buf := by
    obtain ⟨hl, hn⟩ := Option.filter_eq_some_iff.mp hlast
    exact List.mem_map_of_mem (List.mem_filter.mpr ⟨List.mem_of_getLast? hl, hn⟩)
  rw [lastState]
  cases hh : flashHeaders buf with
  | nil => rw [hh] at hmem; cases hmem
  | cons hd hds =>
    rw [hh] at hmem
    obtain ⟨-, hflag, hsame⟩ := pass_info familyid (Reader.start appstartaddr) hd
    have hnone : (Reader.start appstartaddr).prevFlag = none := rfl
    rw [hnone, Option.getD_none] at hflag hsame
    rw [List.foldl_cons, flags_foldl hflag, hsame]
    simp only [Reader.start, beq_self_eq_true, Bool.and_self, true_and]
    refine ⟨fun hall h hh => ?_, fun hall h hh => ?_⟩
    · have heq : ∀ h' ∈ hd :: hds, h'.flags = hd.flags := List.forall_mem_cons.mpr ⟨rfl, hall⟩
      exact (heq h hh).trans (heq _ hmem).symm
    · exact (hall h (List.mem_cons_of_mem _ hh)).trans (hall hd List.mem_cons_self).symm

/-- **What is printed of a file is so**: each family of its blocks once, with the lowest of
their addresses, and the flags of the last block exactly when all blocks have the same;
nothing is printed if the last block is not flashed. -/
theorem info_iff {r : Converted} (hr : convertFromUf2 familyid appstartaddr buf = .ok r) :
    match lastFlashed buf with
    | none => r.info = none
    | some block => ∃ info, r.info = some info ∧ ListsFamilies info.families (flashHeaders buf) ∧
        info.flags = if ∀ hd ∈ flashHeaders buf, hd.flags = (unpackHeader block).flags then
          some (unpackHeader block).flags else none := by
  rw [convertFromUf2] at hr
  cases hrun : (reader familyid).run (Reader.start appstartaddr) (chunks 512 buf) with
  | none => simp [hrun] at hr
  | some q =>
    obtain ⟨s, outp⟩ := q
    have hs : s = lastState familyid appstartaddr buf := reader_run_state hrun
    simp only [hrun] at hr
    cases hlast : lastFlashed buf with
    | none =>
      rw [hlast] at hr
      obtain ⟨_, -, rfl⟩ := map_eq_ok_iff.mp hr
      rfl
    | some block =>
      rw [hlast] at hr
      have hinfo : r.info = some (printed familyid appstartaddr buf block) := by
        dsimp only at hr
        split at hr <;> obtain ⟨_, -, rfl⟩ := map_eq_ok_iff.mp hr <;> rw [hs] <;> rfl
      refine ⟨_, hinfo, lastState_lists, ?_⟩
      simp only [printed, lastState_flags hlast]

theorem info_iff_two :
    ∃ r info, convertFromUf2 0 0 twoFamilies = .ok r ∧ r.info = some info ∧
      ListsFamilies info.families (flashHeaders twoFamilies) := by
  have hr : ∃ r, convertFromUf2 0 0 twoFamilies = .ok r := by
    refine ⟨⟨[], some 0, some ⟨[(7, 0x1000), (9, 0x8000)], some 0x2000⟩⟩, ?_⟩
    decide +kernel
  have hlast : lastFlashed twoFamilies = some (looseBlock 0x2000 0x8000 9 [5, 6]) := by decide +kernel
  obtain ⟨r, hr⟩ := hr
  have hinfo := info_iff hr
  rw [hlast] at hinfo
  obtain ⟨info, hsome, hlists, -⟩ := hinfo
  exact ⟨r, info, hr, hsome, hlists⟩

end

end ThreadSwitch.Uf2
