import ItemFilter.Settings.Expansion
import Mathlib

/-!
# Paths and the variables that they refer to

Which variables a path refers to does not depend on the environment: a path is a sequence of
pieces, characters that stand for themselves and references (`pieces`). Expansion replaces each
reference by its value (`variables?_eq_values?`), so a path has an expansion exactly when all
references in it are resolved (`isSome_expand?_iff`), and where there is nothing to replace the
expansion is the path itself (`expand?_eq_self`).
-/

namespace ItemFilter.Expansion

/-- A piece of a path: a character that stands for itself, or a reference to a variable, which may
have a default. -/
inductive Piece where
  | char (c : Char)
  | reference (name : String) (default? : Option (List Char))
deriving DecidableEq, Repr

/-- The pieces of a path. They depend on the path alone. -/
def pieces (cs : List Char) : List Piece :=
  match cs with
  | [] => []
  | '$' :: '{' :: rest =>
    let inner := rest.takeWhile (· != '}')
    if inner.length = rest.length then .char '$' :: .char '{' :: pieces rest
    else
      .reference (String.ofList (splitReference inner).1) (splitReference inner).2 ::
        pieces (rest.drop (inner.length + 1))
  | '$' :: '$' :: rest => .char '$' :: pieces rest
  | '$' :: rest =>
    let name := rest.takeWhile isNameChar
    if name.isEmpty then .char '$' :: pieces rest
    else .reference (String.ofList name) none :: pieces (rest.drop name.length)
  | c :: rest => .char c :: pieces rest
termination_by cs.length

/-- What a piece stands for, if the variable that it refers to is set or has a default. -/
def Piece.value? (env : Environment) : Piece → Option (List Char)
  | char c => some [c]
  | reference name default? => ((env.get? name).map String.toList).or default?

/-- What pieces stand for together, if each of them stands for something. -/
def values? (env : Environment) (ps : List Piece) : Option (List Char) :=
  (ps.mapM (Piece.value? env)).map List.flatten

/-- A piece comes before the others. -/
theorem values?_cons (env : Environment) (p : Piece) (ps : List Piece) :
    values? env (p :: ps) =
      (p.value? env).bind fun value => (values? env ps).map (value ++ ·) := by
  cases hp : p.value? env <;> cases hps : ps.mapM (Piece.value? env) <;>
    simp [values?, hp, hps]

/-- A character that stands for itself comes before the others. -/
theorem values?_char (env : Environment) (c : Char) (ps : List Piece) :
    values? env (.char c :: ps) = (values? env ps).map (c :: ·) := by
  rw [values?_cons]
  rfl

/-- The variables of a text are replaced piece by piece. -/
theorem variables?_eq_values? (env : Environment) (cs : List Char) :
    variables? env cs = values? env (pieces cs) := by
  fun_induction pieces cs with
  | case1 => rw [variables?]; rfl
  | case2 rest inner hlength ih =>
    rw [variables?, if_pos hlength, ih, values?_char, values?_char, Option.map_map]
    rfl
  | case3 rest inner hlength ih =>
    rw [variables?, if_neg hlength, ih, values?_cons]
    cases values? env (pieces (rest.drop (inner.length + 1))) <;> rfl
  | case4 rest ih => rw [variables?, ih, values?_char]
  | case5 rest hbrace hdollar name hempty ih =>
    rw [variables?.eq_4 _ _ hbrace hdollar, if_pos hempty, ih, values?_char]
  | case6 rest hbrace hdollar name hempty ih =>
    rw [variables?.eq_4 _ _ hbrace hdollar, if_neg hempty, ih, values?_cons]
    cases hname : env.get? (String.ofList name) <;>
      cases values? env (pieces (rest.drop name.length)) <;>
      simp [Piece.value?, hname, name]
  | case7 c rest hbrace hdouble hdollar ih =>
    rw [variables?.eq_5 _ _ _ hbrace hdouble hdollar, ih, values?_char]

/-! ## Resolved references -/

/-- A reference is resolved if its variable is set or it has a default. -/
def Piece.Resolves (env : Environment) : Piece → Prop
  | char _ => True
  | reference name default? => (env.get? name).isSome = true ∨ default?.isSome = true

instance (env : Environment) : DecidablePred (Piece.Resolves env)
  | .char _ => isTrue trivial
  | .reference _ _ => inferInstanceAs (Decidable (_ ∨ _))

/-- All references in a path are resolved. -/
def Resolves (env : Environment) (path : String) : Prop :=
  ∀ p ∈ pieces path.toList, p.Resolves env

instance (env : Environment) (path : String) : Decidable (Resolves env path) :=
  inferInstanceAs (Decidable (∀ p ∈ pieces path.toList, p.Resolves env))

/-- A piece stands for something exactly when it is resolved. -/
theorem Piece.isSome_value?_iff {env : Environment} {p : Piece} :
    (p.value? env).isSome = true ↔ p.Resolves env := by
  cases p with
  | char c => simp [value?, Resolves]
  | reference name default? => simp [value?, Resolves]

/-- Pieces stand for something exactly when each of them is resolved. -/
theorem isSome_values?_iff {env : Environment} {ps : List Piece} :
    (values? env ps).isSome = true ↔ ∀ p ∈ ps, p.Resolves env := by
  induction ps with
  | nil => simp [values?]
  | cons p ps ih =>
    rw [values?_cons, List.forall_mem_cons, ← ih, ← Piece.isSome_value?_iff]
    cases p.value? env <;> simp

/-- A path has an expansion exactly when all references in it are resolved. -/
theorem isSome_expand?_iff {env : Environment} {path : String} :
    (expand? env path).isSome = true ↔ Resolves env path := by
  rw [expand?, Option.isSome_map, variables?_eq_values?, isSome_values?_iff]
  rfl

/-! ## Paths without references -/

/-- A text without dollar signs has no references. -/
theorem pieces_of_plain {cs : List Char} (h : '$' ∉ cs) : pieces cs = cs.map .char := by
  induction cs with
  | nil => rw [pieces]; rfl
  | cons c cs ih =>
    have hc : c ≠ '$' := by
      rintro rfl
      simp at h
    rw [pieces.eq_5 _ _ (fun _ hc' => absurd hc' hc) (fun _ hc' => absurd hc' hc) hc,
      ih (List.not_mem_of_not_mem_cons h), List.map_cons]

/-- Characters that stand for themselves stay as they are. -/
theorem values?_map_char (env : Environment) (cs : List Char) :
    values? env (cs.map .char) = some cs := by
  induction cs with
  | nil => rfl
  | cons c cs ih => rw [List.map_cons, values?_char, ih, Option.map_some]

/-- A text without a leading tilde does not name the home directory. -/
theorem tilde_eq_self (env : Environment) {text : String} (h : startsWithTilde text = false) :
    tilde env text = text := by
  unfold tilde
  split
  · next rest hrest => simp [startsWithTilde, hrest] at h
  · rfl

/-- A path without dollar signs and without a leading tilde is its own expansion. -/
theorem expand?_eq_self (env : Environment) {path : String} (hdollar : '$' ∉ path.toList)
    (htilde : startsWithTilde path = false) : expand? env path = some path := by
  have hvariables : variables? env path.toList = some path.toList := by
    rw [variables?_eq_values?, pieces_of_plain hdollar, values?_map_char]
  simp [expand?, hvariables, htilde, tilde_eq_self env htilde]

end ItemFilter.Expansion
