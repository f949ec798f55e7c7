/-!
The four kinds of content that fields are registered under.
-/

namespace BlueprintSchema

inductive ContentType
  | entry
  | term
  | asset
  | global
  deriving DecidableEq, Repr, Inhabited

namespace ContentType

def all : List ContentType := [entry, term, asset, global]

def name : ContentType → String
  | entry => "entry"
  | term => "term"
  | asset => "asset"
  | global => "global"

def ofName? (s : String) : Option ContentType := all.find? (fun t => t.name == s)

structure Unknown where
  name : String

def Unknown.message (u : Unknown) : String := "unknown content type: " ++ u.name

def read (s : String) : Except Unknown ContentType :=
  match ofName? s with
  | some t => .ok t
  | none => .error ⟨s⟩

@[simp] theorem ofName?_name (t : ContentType) : ofName? t.name = some t := by
  cases t <;> decide

end ContentType

end BlueprintSchema
