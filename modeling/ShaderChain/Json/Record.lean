import ShaderChain.Json.Reader

/-!
# Reading records

A record is written as an object, or as an array of its fields in their order. In an object the
members may come in any order, unknown members are passed over, and a field that comes twice is
of the wrong type as soon as its second name has been read. In an array every field must be
there and nothing may follow them.

A `Record` reads into a draft, a structure in which every field may still be missing, and a
draft becomes a value when the object ends.
-/

namespace ShaderChain.Json

/-- One field of a draft. -/
structure Field (δ : Type) where
  name : String
  isSet : δ → Bool
  read : δ → Reader δ

/-- The field that `get` looks at and `set` fills. -/
def Field.of (name : String) (get : δ → Option α) (set : δ → α → δ) (value : Reader α) :
    Field δ where
  name
  isSet d := (get d).isSome
  read d s := do
    let (a, s) ← value s
    return (set d a, s)

/-- How to read an `α`, by way of a draft. -/
structure Record (δ α : Type) where
  draft : δ
  fields : List (Field δ)
  /-- The value of a draft, unless a field is missing that must be there. -/
  finish : δ → Option α

namespace Record

variable {δ α : Type}

/-- Reads a member after the opening quote of its name. -/
def member (fields : List (Field δ)) (d : δ) : Reader δ := fun s => do
  let (name, s) ← stringBody s
  match fields.find? (·.name == name) with
  | some field =>
    if field.isSet d then .error .mismatched
    else do
      let s ← expect [':'] (skipGap s)
      field.read d s
  | none => do
    let s ← expect [':'] (skipGap s)
    let s ← skipValue s
    return (d, s)

/-- Reads the members up to the closing brace; `first` before any comma. -/
def members (fields : List (Field δ)) : (fuel : Nat) → (first : Bool) → δ → Reader δ
  | 0, _, _, _ => .error .malformed
  | fuel + 1, first, d, s =>
    match skipGap s with
    | some '\x7d' :: s => .ok (d, s)
    | some '"' :: s =>
      if first then do
        let (d, s) ← member fields d s
        members fields fuel false d s
      else .error .malformed
    | some ',' :: s =>
      if first then .error .malformed
      else
        match skipGap s with
        | some '"' :: s => do
          let (d, s) ← member fields d s
          members fields fuel false d s
        | _ => .error .malformed
    | _ => .error .malformed

/-- Goes to the next item of an array, `none` at its end; `first` before any comma. -/
def nextItem (first : Bool) (s : Symbols) : Except Fault (Option Symbols) :=
  match skipGap s with
  | [] => .error .malformed
  | some ']' :: _ => .ok none
  | some ',' :: rest =>
    if first then .ok (some (some ',' :: rest))
    else
      match skipGap rest with
      | [] => .error .malformed
      | some ']' :: _ => .error .malformed
      | s => .ok (some s)
  | s => if first then .ok (some s) else .error .malformed

/-- Reads the fields as the items of an array. -/
def items : List (Field δ) → (first : Bool) → δ → Reader δ
  | [], _, d, s =>
    match skipGap s with
    | some ']' :: s => .ok (d, s)
    | _ => .error .malformed
  | field :: fields, first, d, s => do
    match ← nextItem first s with
    | none => .error .mismatched
    | some s => do
      let (d, s) ← field.read d s
      items fields false d s

/-- Completes a draft. -/
def complete (r : Record δ α) (d : δ) (s : Symbols) : Except Fault (α × Symbols) :=
  match r.finish d with
  | some a => .ok (a, s)
  | none => .error .mismatched

/-- Reads a record. -/
def read (r : Record δ α) : Reader α := fun s =>
  match skipGap s with
  | some '\x7b' :: s => do
    let (d, s) ← members r.fields (s.length + 1) true r.draft s
    r.complete d s
  | some '[' :: s => do
    let (d, s) ← items r.fields true r.draft s
    r.complete d s
  | s => .error (wrongType s)

end Record

end ShaderChain.Json
