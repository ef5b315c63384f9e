import ThreadSwitch.Lib.Machine

/-!
# Serial execution of scripts

The sequential specification of a component that serves requests one at a
time: each request `a` has a script `script a` of outputs; a request starts only
when the script of the one before is finished, and outputs are emitted one by
one. `serial_run` says what that means for a whole run: the outputs are the
scripts of the requests, in order, the last one possibly cut short.
-/

namespace ThreadSwitch.Lib

inductive SerialEvent (α : Type) where
  | start (a : α)
  | emit

/-- The requests started, in order. -/
def starts {α : Type} (es : List (SerialEvent α)) : List α :=
  es.filterMap fun
    | .start a => some a
    | .emit => none

/-- The state is what is left of the current script. -/
def serial {α ω : Type} (script : α → List ω) : Machine (List ω) (SerialEvent α) ω where
  step
    | [], .start a => some (script a, [])
    | c :: rest, .emit => some (rest, [c])
    | _, _ => none

variable {α ω : Type} {script : α → List ω}

@[simp] theorem starts_append (es fs : List (SerialEvent α)) :
    starts (es ++ fs) = starts es ++ starts fs := by
  simp [starts]

/-- Starting a request and emitting its first output. -/
theorem serial_start_emit {a : α} {c : ω} {rest : List ω} (h : script a = c :: rest) :
    (serial script).run [] [.start a, .emit] = some (rest, [c]) := by
  simp [Machine.run, serial, h]

/-- What is left of the current script, after what was emitted, completes the
scripts of all requests; it is a final part of the last one. -/
theorem serial_run {es : List (SerialEvent α)} {os todo : List ω}
    (h : (serial script).run [] es = some (todo, os)) :
    os ++ todo = (starts es).flatMap script ∧ todo <:+ (starts es).getLast?.elim [] script := by
  refine Machine.run_induct (motive := fun es os todo => os ++ todo = (starts es).flatMap script ∧
    todo <:+ (starts es).getLast?.elim [] script) ⟨rfl, List.suffix_rfl⟩ ?_ h
  rintro es os t e o u - ⟨hall, hlast⟩ hs
  cases e with
  | start a =>
    cases t with
    | cons c rest => cases hs
    | nil =>
      cases hs
      have he : starts [SerialEvent.start a] = [a] := rfl
      simp only [starts_append, he, List.flatMap_append, ← hall, List.getLast?_concat]
      exact ⟨by simp, List.suffix_rfl⟩
  | emit =>
    cases t with
    | nil => cases hs
    | cons c rest =>
      cases hs
      have he : starts [(SerialEvent.emit : SerialEvent α)] = [] := rfl
      rw [starts_append, he, List.append_nil, ← hall]
      exact ⟨by simp, (List.suffix_cons c _).trans hlast⟩

end ThreadSwitch.Lib
