import Mathlib.Data.List.Basic

/-!
# JSON values

Strings and numbers are parameters: a reader of JSON in one language keeps other
strings and numbers than in another. An object is its list of members as parsed,
and reading one of them finds the last of its name.
-/

universe u v

inductive Json (σ : Type u) (ν : Type v) where
  | null
  | bool (b : Bool)
  | number (n : ν)
  | string (s : σ)
  | array (items : List (Json σ ν))
  | object (members : List (σ × Json σ ν))

namespace Json

variable {σ : Type u} {ν : Type v}

instance : Inhabited (Json σ ν) := ⟨null⟩

def asBool : Json σ ν → Option Bool
  | .bool b => some b
  | _ => none

def asString : Json σ ν → Option σ
  | .string s => some s
  | _ => none

def asNumber : Json σ ν → Option ν
  | .number n => some n
  | _ => none

def asArray : Json σ ν → Option (List (Json σ ν))
  | .array items => some items
  | _ => none

def asObject : Json σ ν → Option (List (σ × Json σ ν))
  | .object members => some members
  | _ => none

def isObject (j : Json σ ν) : Bool := j.asObject.isSome

section Members

variable [DecidableEq σ]

def member (members : List (σ × Json σ ν)) (name : σ) : Option (Json σ ν) :=
  (members.reverse.find? fun m => decide (m.1 = name)).map Prod.snd

def get (j : Json σ ν) (name : σ) : Option (Json σ ν) :=
  j.asObject.bind fun members => member members name

end Members

end Json
