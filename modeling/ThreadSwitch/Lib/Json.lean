import Mathlib.Algebra.Ring.Int.Defs
import Mathlib.Algebra.Ring.Nat
import Mathlib.Data.List.Nodup
import Mathlib.Data.List.Perm.Subperm

/-!
# JSON read by descriptors

A parser driven by a tree of descriptors meets the members of a document left to
right. A member named by a descriptor that is not decoded yet is read into that
descriptor's field, any other member is skipped, and the first value that is
malformed or of the wrong kind ends the reading. `Descr.read` returns what was
stored until then, in order.

- `readMembers_fields`: no field is stored to twice.
- `readMembers_flat`, `mem_readMembers_flat`: where all descriptors are numbers,
  reading succeeds, and what it stores, in terms of the first member of each name.
-/

namespace ThreadSwitch.Lib

/-- A JSON text as far as a parser reads it. -/
inductive Json where
  | number (n : Int)
  | object (members : List (String × Json))
  /-- A string, a literal, an array or a number that is not an integer. -/
  | other (text : String)
  /-- The text is malformed here. -/
  | bad

mutual
def Json.wellFormed : Json → Bool
  | .object members => membersWellFormed members
  | .bad => false
  | _ => true

def membersWellFormed : List (String × Json) → Bool
  | [] => true
  | (_, value) :: rest => value.wellFormed && membersWellFormed rest
end

theorem membersWellFormed_cons {key : String} {value : Json} {rest : List (String × Json)} :
    membersWellFormed ((key, value) :: rest) = true ↔
      value.wellFormed = true ∧ membersWellFormed rest = true := by
  rw [membersWellFormed, Bool.and_eq_true]

/-- The integers a signed 32-bit field can hold. -/
def FitsInt32 (n : Int) : Prop := -2 ^ 31 ≤ n ∧ n < 2 ^ 31

instance (n : Int) : Decidable (FitsInt32 n) := inferInstanceAs (Decidable (_ ∧ _))

/-- The value as a signed 32-bit integer. -/
def Json.asInt32 : Json → Option Int
  | .number n => if FitsInt32 n then some n else none
  | _ => none

/-- Where the value of a member goes: a number into a field of type `φ`, an
object to the descriptors of its own members. -/
inductive Descr (φ : Type) where
  | number (name : String) (field : φ)
  | object (name : String) (sub : List (Descr φ))

namespace Descr

variable {φ : Type} (spill : Json → Option Int)

def name : Descr φ → String
  | number name _ => name
  | object name _ => name

@[simp] theorem name_number (n : String) (field : φ) : (number n field).name = n := rfl

@[simp] theorem name_object (n : String) (sub : List (Descr φ)) : (object n sub).name = n := rfl

mutual
/-- The fields below a descriptor. -/
def fields : Descr φ → List φ
  | number _ field => [field]
  | object _ sub => allFields sub

def allFields : List (Descr φ) → List φ
  | [] => []
  | descr :: rest => descr.fields ++ allFields rest
end

mutual
/-- What reading a value stores, in order, and whether it succeeds. `spill` is what
a value that is no 32-bit integer leaves in a number's field. -/
def read : Descr φ → Json → List (φ × Int) × Bool
  | .number _ field, value =>
    match value.asInt32 with
    | some n => ([(field, n)], true)
    | none => ((spill value).toList.map (field, ·), false)
  | .object _ sub, .object members =>
    let r := readMembers sub.zipIdx members
    (r.1, r.2.isSome)
  | .object _ _, _ => ([], false)

/-- What reading the members of an object stores, and the mask of the descriptors
decoded. `left` are those not decoded yet, with their bits. -/
def readMembers (left : List (Descr φ × Nat)) :
    List (String × Json) → List (φ × Int) × Option Nat
  | [] => ([], some 0)
  | (key, value) :: rest =>
    match left.find? (·.1.name = key) with
    | none => if value.wellFormed then readMembers left rest else ([], none)
    | some (descr, bit) =>
      let r := descr.read value
      if r.2 then
        let q := readMembers (left.eraseP (·.1.name = key)) rest
        (r.1 ++ q.1, q.2.map (2 ^ bit + ·))
      else (r.1, none)
end

/-- Reading a whole document. -/
def readDocument (descrs : List (Descr φ)) : Json → List (φ × Int) × Option Nat
  | .object members => readMembers spill descrs.zipIdx members
  | _ => ([], none)

/-! ## What one member does -/

section steps
variable {spill} {left : List (Descr φ × Nat)} {key : String}

theorem find_none (h : left.find? (·.1.name = key) = none) : ∀ d ∈ left, d.1.name ≠ key := by
  simpa using h

/-- The descriptors around the one found. -/
theorem find_split {descr : Descr φ} {bit : Nat}
    (h : left.find? (·.1.name = key) = some (descr, bit)) :
    descr.name = key ∧ ∃ as bs, left = as ++ (descr, bit) :: bs ∧
      left.eraseP (·.1.name = key) = as ++ bs := by
  obtain ⟨hname, as, bs, rfl, has⟩ := List.find?_eq_some_iff_append.mp h
  refine ⟨by simpa using hname, as, bs, rfl, ?_⟩
  rw [List.eraseP_append_right _ (by simpa using has), List.eraseP_cons, hname, cond_true]

theorem find_single {descr : Descr φ} (h : descr.name = key) (bit : Nat) :
    [(descr, bit)].find? (·.1.name = key) = some (descr, bit) :=
  List.find?_cons_of_pos (decide_eq_true h)

theorem find_single_of_ne {descr : Descr φ} (h : descr.name ≠ key) (bit : Nat) :
    [(descr, bit)].find? (·.1.name = key) = none :=
  List.find?_cons_of_neg (by simpa using h)

theorem readMembers_skip (h : left.find? (·.1.name = key) = none) (value : Json)
    (rest : List (String × Json)) :
    readMembers spill left ((key, value) :: rest) =
      if value.wellFormed then readMembers spill left rest else ([], none) := by
  simp only [readMembers, h]

theorem readMembers_decode {descr : Descr φ} {bit : Nat}
    (h : left.find? (·.1.name = key) = some (descr, bit)) {value : Json}
    (hd : (descr.read spill value).2 = true) (rest : List (String × Json)) :
    readMembers spill left ((key, value) :: rest) =
      ((descr.read spill value).1 ++ (readMembers spill (left.eraseP (·.1.name = key)) rest).1,
        (readMembers spill (left.eraseP (·.1.name = key)) rest).2.map (2 ^ bit + ·)) := by
  simp only [readMembers, h, hd, if_true]

theorem readMembers_fail {descr : Descr φ} {bit : Nat}
    (h : left.find? (·.1.name = key) = some (descr, bit)) {value : Json}
    (hd : (descr.read spill value).2 = false) (rest : List (String × Json)) :
    readMembers spill left ((key, value) :: rest) = ((descr.read spill value).1, none) := by
  simp only [readMembers, h, hd, Bool.false_eq_true, if_false]

end steps

/-! ## No field is stored to twice -/

theorem allFields_eq (sub : List (Descr φ)) :
    allFields sub = sub.zipIdx.flatMap (·.1.fields) := by
  have hall : ∀ l : List (Descr φ), allFields l = l.flatMap fields := fun l => by
    induction l with
    | nil => rfl
    | cons d l ih => rw [allFields, ih, List.flatMap_cons]
  rw [hall, ← List.flatMap_map Prod.fst fields, List.zipIdx_map_fst]

variable {spill}

mutual
theorem read_fields : ∀ (descr : Descr φ) (value : Json),
    List.Subperm ((descr.read spill value).1.map Prod.fst) descr.fields
  | .number name field, value => by
    simp only [read, fields]
    cases value.asInt32 with
    | some n => simp
    | none => cases spill value <;> simp
  | .object name sub, .object members => by
    simp only [read, fields, allFields_eq]
    exact readMembers_fields sub.zipIdx members
  | .object name sub, .number n => by simp [read]
  | .object name sub, .other text => by simp [read]
  | .object name sub, .bad => by simp [read]

/-- What is stored goes to different occurrences of fields below the descriptors. -/
theorem readMembers_fields : ∀ (left : List (Descr φ × Nat)) (members : List (String × Json)),
    List.Subperm ((readMembers spill left members).1.map Prod.fst) (left.flatMap (·.1.fields))
  | left, [] => by simp [readMembers]
  | left, (key, value) :: rest => by
    cases h : left.find? (·.1.name = key) with
    | none =>
      rw [readMembers_skip h]
      split
      · exact readMembers_fields left rest
      · simp
    | some d =>
      obtain ⟨descr, bit⟩ := d
      obtain ⟨-, as, bs, rfl, he⟩ := find_split h
      have hd := read_fields descr value
      have hperm : List.Perm (descr.fields ++ (as ++ bs).flatMap (·.1.fields))
          ((as ++ (descr, bit) :: bs).flatMap (·.1.fields)) := by
        simp only [List.flatMap_append, List.flatMap_cons]
        exact List.perm_append_comm_assoc ..
      refine List.Subperm.trans ?_ hperm.subperm
      cases hok : (descr.read spill value).2 with
      | false =>
        rw [readMembers_fail h hok]
        exact hd.trans (List.sublist_append_left ..).subperm
      | true =>
        rw [readMembers_decode h hok, he, List.map_append]
        exact hd.append (readMembers_fields (as ++ bs) rest)
end

/-- Descriptors with different fields store to each at most once. -/
theorem readDocument_nodup {descrs : List (Descr φ)} (hn : (allFields descrs).Nodup) (doc : Json) :
    ((readDocument spill descrs doc).1.map Prod.fst).Nodup := by
  cases doc with
  | object members =>
    obtain ⟨l, hperm, hsub⟩ := @readMembers_fields φ spill descrs.zipIdx members
    rw [allFields_eq] at hn
    exact hperm.nodup_iff.mp (hn.sublist hsub)
  | _ => simp [readDocument]

/-! ## Reading well-formed members -/

theorem lookup_cons_of_ne {name key : String} (h : name ≠ key) (value : Json)
    (rest : List (String × Json)) : ((key, value) :: rest).lookup name = rest.lookup name := by
  rw [List.lookup_cons, beq_false_of_ne h]

/-- A member of well-formed members is well formed. -/
theorem wellFormed_of_lookup {members : List (String × Json)} {name : String} {value : Json}
    (hwf : membersWellFormed members = true) (h : members.lookup name = some value) :
    value.wellFormed = true := by
  induction members with
  | nil => cases h
  | cons member rest ih =>
    obtain ⟨key, v⟩ := member
    obtain ⟨hv, hrest⟩ := membersWellFormed_cons.mp hwf
    by_cases hname : name = key
    · rw [hname, List.lookup_cons_self] at h
      cases h
      exact hv
    · rw [lookup_cons_of_ne hname] at h
      exact ih hrest h

/-- With no descriptor left the rest is skipped. -/
theorem readMembers_nil (members : List (String × Json)) :
    readMembers spill ([] : List (Descr φ × Nat)) members =
      ([], if membersWellFormed members then some 0 else none) := by
  induction members with
  | nil => rfl
  | cons member rest ih =>
    obtain ⟨key, value⟩ := member
    rw [readMembers_skip rfl, ih, membersWellFormed]
    cases value.wellFormed <;> simp

/-- The mask of one descriptor is empty or its bit. -/
theorem readMembers_single_mask {descr : Descr φ} {bit mask : Nat}
    {members : List (String × Json)}
    (h : (readMembers spill [(descr, bit)] members).2 = some mask) : mask = 0 ∨ mask = 2 ^ bit := by
  induction members with
  | nil => exact .inl (Option.some.inj h).symm
  | cons member rest ih =>
    obtain ⟨key, value⟩ := member
    by_cases hname : descr.name = key
    · have hfind := find_single hname bit
      cases hok : (descr.read spill value).2 with
      | false => rw [readMembers_fail hfind hok] at h; cases h
      | true =>
        rw [readMembers_decode hfind hok] at h
        simp only [hname, decide_true, List.eraseP_cons_of_pos, readMembers_nil] at h
        split at h
        · exact .inr (Option.some.inj h).symm
        · cases h
    · rw [readMembers_skip (find_single_of_ne hname bit)] at h
      split at h
      · exact ih h
      · cases h

/-- One descriptor reads the first member of its name. -/
theorem readMembers_single {descr : Descr φ} {bit : Nat} {members : List (String × Json)}
    (hwf : membersWellFormed members = true) :
    readMembers spill [(descr, bit)] members =
      match members.lookup descr.name with
      | none => ([], some 0)
      | some value => ((descr.read spill value).1,
          if (descr.read spill value).2 then some (2 ^ bit) else none) := by
  induction members with
  | nil => rfl
  | cons member rest ih =>
    obtain ⟨key, value⟩ := member
    obtain ⟨hv, hrest⟩ := membersWellFormed_cons.mp hwf
    by_cases hname : descr.name = key
    · have hfind := find_single hname bit
      rw [hname, List.lookup_cons_self]
      cases hok : (descr.read spill value).2 with
      | false => simp [readMembers_fail hfind hok, hok]
      | true => simp [readMembers_decode hfind hok, hok, hname, readMembers_nil, hrest]
    · rw [readMembers_skip (find_single_of_ne hname bit), if_pos hv, ih hrest,
        lookup_cons_of_ne hname]

/-- The descriptors are numbers, with different names. -/
structure Flat (left : List (Descr φ × Nat)) : Prop where
  numbers : ∀ d ∈ left, ∃ name field, d.1 = .number name field
  names : (left.map (·.1.name)).Nodup

/-- The value of the first member of the name, as a 32-bit integer. -/
def firstInt (members : List (String × Json)) (name : String) : Option Int :=
  (members.lookup name).bind Json.asInt32

@[simp] theorem firstInt_cons_self (name : String) (value : Json) (rest : List (String × Json)) :
    firstInt ((name, value) :: rest) name = value.asInt32 := by
  simp [firstInt]

theorem firstInt_cons_of_ne {name key : String} (h : name ≠ key) (value : Json)
    (rest : List (String × Json)) : firstInt ((key, value) :: rest) name = firstInt rest name := by
  rw [firstInt, lookup_cons_of_ne h, firstInt]

theorem Flat.erase {as bs : List (Descr φ × Nat)} {d : Descr φ × Nat}
    (h : Flat (as ++ d :: bs)) : Flat (as ++ bs) ∧ ∀ d' ∈ as ++ bs, d'.1.name ≠ d.1.name := by
  obtain ⟨hnum, hnames⟩ := h
  rw [List.map_append, List.map_cons, List.nodup_middle, ← List.map_append, List.nodup_cons] at hnames
  refine ⟨⟨fun d' hd' => hnum d' ?_, hnames.2⟩, fun d' hd' he => hnames.1 ?_⟩
  · rw [List.mem_append] at hd' ⊢
    exact hd'.imp id (List.mem_cons_of_mem _)
  · exact he ▸ List.mem_map_of_mem hd'

theorem mem_split {as bs : List (Descr φ × Nat)} {d d' : Descr φ × Nat} :
    d' ∈ as ++ d :: bs ↔ d' = d ∨ d' ∈ as ++ bs := by
  simp only [List.mem_append, List.mem_cons]
  exact or_left_comm

section flat
variable {left : List (Descr φ × Nat)} {members : List (String × Json)}

/-- Number descriptors read well-formed members exactly when the first member of each
name, if there is one, is a 32-bit integer. -/
theorem readMembers_flat (hf : Flat left) (hwf : membersWellFormed members = true) :
    (readMembers spill left members).2.isSome = true ↔
      ∀ d ∈ left, members.lookup d.1.name ≠ none → firstInt members d.1.name ≠ none := by
  induction members generalizing left with
  | nil => simp [readMembers]
  | cons member rest ih =>
    obtain ⟨key, value⟩ := member
    obtain ⟨hv, hrest⟩ := membersWellFormed_cons.mp hwf
    cases h : left.find? (·.1.name = key) with
    | none =>
      rw [readMembers_skip h, if_pos hv, ih hf hrest]
      refine forall₂_congr fun d hd => ?_
      rw [firstInt_cons_of_ne (find_none h d hd), lookup_cons_of_ne (find_none h d hd)]
    | some d =>
      obtain ⟨descr, bit⟩ := d
      obtain ⟨hkey, as, bs, rfl, he⟩ := find_split h
      obtain ⟨hf', hne⟩ := hf.erase
      obtain ⟨name, field, rfl⟩ := hf.numbers (descr, bit) (by simp)
      obtain rfl : name = key := hkey
      have hsplit : (∀ d ∈ as ++ (number name field, bit) :: bs,
          ((name, value) :: rest).lookup d.1.name ≠ none →
            firstInt ((name, value) :: rest) d.1.name ≠ none) ↔
          value.asInt32 ≠ none ∧ ∀ d ∈ as ++ bs, rest.lookup d.1.name ≠ none →
            firstInt rest d.1.name ≠ none := by
        simp only [mem_split, forall_eq_or_imp, name_number]
        refine and_congr (by simp) (forall₂_congr fun d hd => ?_)
        have hkey : d.1.name ≠ name := hne d hd
        rw [firstInt_cons_of_ne hkey, lookup_cons_of_ne hkey]
      rw [hsplit]
      cases hint : value.asInt32 with
      | none =>
        rw [readMembers_fail h (by simp [read, hint])]
        simp
      | some n =>
        rw [readMembers_decode h (by simp [read, hint]), he]
        simp [ih hf' hrest]

/-- What number descriptors store when they read all members. -/
theorem mem_readMembers_flat (hf : Flat left) (hwf : membersWellFormed members = true)
    (hok : (readMembers spill left members).2.isSome = true) {field : φ} {n : Int} :
    (field, n) ∈ (readMembers spill left members).1 ↔
      ∃ name bit, (.number name field, bit) ∈ left ∧ firstInt members name = some n := by
  induction members generalizing left with
  | nil => simp [readMembers, firstInt]
  | cons member rest ih =>
    obtain ⟨key, value⟩ := member
    obtain ⟨hv, hrest⟩ := membersWellFormed_cons.mp hwf
    cases h : left.find? (·.1.name = key) with
    | none =>
      rw [readMembers_skip h, if_pos hv] at hok ⊢
      rw [ih hf hrest hok]
      refine exists₂_congr fun name bit => and_congr_right fun hd => ?_
      have hkey : name ≠ key := find_none h _ hd
      rw [firstInt_cons_of_ne hkey]
    | some d =>
      obtain ⟨descr, bit⟩ := d
      obtain ⟨hkey, as, bs, rfl, he⟩ := find_split h
      obtain ⟨hf', hne⟩ := hf.erase
      obtain ⟨name, field', rfl⟩ := hf.numbers (descr, bit) (by simp)
      obtain rfl : name = key := hkey
      cases hint : value.asInt32 with
      | none =>
        rw [readMembers_fail h (by simp [read, hint])] at hok
        cases hok
      | some m =>
        have hread : read spill (number name field') value = ([(field', m)], true) := by
          simp [read, hint]
        rw [readMembers_decode h (by rw [hread]), he, hread] at hok ⊢
        rw [Option.isSome_map] at hok
        rw [List.mem_append, ih hf' hrest hok, List.mem_singleton]
        refine ⟨?_, ?_⟩
        · rintro (hhere | ⟨name', bit', hd, hn⟩)
          · cases hhere
            exact ⟨name, bit, mem_split.mpr (.inl rfl), by rw [firstInt_cons_self, hint]⟩
          · have hkey : name' ≠ name := hne _ hd
            exact ⟨name', bit', mem_split.mpr (.inr hd), by rw [firstInt_cons_of_ne hkey, hn]⟩
        · rintro ⟨name', bit', hd, hn⟩
          rcases mem_split.mp hd with hhere | hd
          · cases hhere
            rw [firstInt_cons_self, hint] at hn
            exact .inl (by rw [Option.some.inj hn])
          · have hkey : name' ≠ name := hne _ hd
            rw [firstInt_cons_of_ne hkey] at hn
            exact .inr ⟨name', bit', hd, hn⟩

end flat

end Descr

end ThreadSwitch.Lib
