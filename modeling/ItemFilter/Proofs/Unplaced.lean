import ItemFilter.Line.Summary
import ItemFilter.Proofs.Relocation

/-!
# What a line says, apart from where

Two lines say the same if they differ in their ranges only. To compare them, all ranges are put in
one place (`Messages.unplaced`, `Argument.unplaced`, `LineKind.unplaced`). Reporting a problem does
the same to the messages wherever it is reported (`Messages.unplaced_report`), and the summary of a
line depends on nothing that is lost (`LineKind.parts_unplaced`).
-/

namespace ItemFilter

/-- The place where all ranges are put. -/
def Range.nowhere : Range := .onRow 0 0 0

namespace Messages

/-- The diagnostics without their places, in order. -/
def unplaced (m : Messages) : Messages := m.mapRanges fun _ => .nowhere

/-- Wherever a problem is reported, the diagnostics without their places are the same. -/
theorem unplaced_report {m m' : Messages} (h : m'.unplaced = m.unplaced) (file : Option String)
    (problem : Problem) (range range' : Range) :
    (m'.report file problem range').unplaced = (m.report file problem range).unplaced := by
  unfold unplaced at h ⊢
  rw [mapRanges_report, mapRanges_report, h]

/-- Whether there is a diagnostic can be seen without the places. -/
theorem isEmpty_of_unplaced {m m' : Messages} (h : m'.unplaced = m.unplaced) :
    m'.isEmpty = m.isEmpty := by
  rw [← isEmpty_mapRanges (fun _ => .nowhere) m, ← isEmpty_mapRanges (fun _ => .nowhere) m']
  exact congrArg isEmpty h

/-- Whether there is an error can be seen without the places. -/
theorem hasErrors_of_unplaced {m m' : Messages} (h : m'.unplaced = m.unplaced) :
    m'.hasErrors = m.hasErrors := by
  rw [← hasErrors_mapRanges (fun _ => .nowhere) m, ← hasErrors_mapRanges (fun _ => .nowhere) m']
  exact congrArg hasErrors h

end Messages

namespace Argument

/-- The argument without the places of its tokens. -/
def unplaced (a : Argument) : Argument := a.mapRanges fun _ => .nowhere

/-- The parts of an argument do not depend on where its tokens stand. -/
theorem parts_unplaced (a : Argument) : a.unplaced.parts = a.parts := by
  cases a with
  | number token | rarity token | socketGroup token | boolean token | fontSize token
  | soundFile token => cases token <;> rfl
  | names tokens =>
    cases tokens with
    | nil => rfl
    | cons t tokens => simp [unplaced, mapRanges, parts, Token.mapRange, Function.comp_def]
  | color c =>
    cases c with
    | none => rfl
    | some c => obtain ⟨red, green, blue, _ | alpha⟩ := c <;> rfl
  | sound s =>
    cases s with
    | none => rfl
    | some s => obtain ⟨id, _ | volume⟩ := s <;> rfl
  | flag => rfl

end Argument

namespace LineKind

/-- What a row is, without the places of its tokens. -/
def unplaced (kind : LineKind) : LineKind := kind.mapRanges fun _ => .nowhere

/-- The parts of a line do not depend on where its tokens stand. -/
theorem parts_unplaced (kind : LineKind) : kind.unplaced.parts = kind.parts := by
  cases kind with
  | empty | comment text => rfl
  | block header => obtain ⟨keyword, _ | comment⟩ := header <;> rfl
  | rule r =>
    have hargument := r.argument.parts_unplaced
    obtain ⟨name, operator, argument, comment⟩ := r
    show [name.value.family, name.value.name] ++ _ ++ argument.unplaced.parts ++ _ = _
    rw [hargument]
    cases operator <;> cases comment <;> rfl
  | unknown word => cases word <;> rfl

end LineKind

/-- Lines that say the same have the same summary. -/
theorem Line.summary_of_unplaced {line line' : Line}
    (hkind : line'.kind.unplaced = line.kind.unplaced) (hinvalid : line'.invalid = line.invalid) :
    line'.summary = line.summary := by
  have hparts : line'.kind.parts = line.kind.parts := by
    rw [← LineKind.parts_unplaced line.kind, ← LineKind.parts_unplaced line'.kind, hkind]
  rw [summary, summary, hparts, hinvalid]

end ItemFilter
