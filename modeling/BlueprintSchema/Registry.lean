import Std.Data.HashMap
import BlueprintSchema.ContentType
import BlueprintSchema.Field

/-!
The registry of fields: for each content type the fields in the order of discovery, with an index
from handles to the place of the last field of that name.
-/

namespace BlueprintSchema

structure Bucket where
  fields : Array Field
  index : Std.HashMap String Nat

namespace Bucket

def empty : Bucket := ⟨#[], ∅⟩

def push (b : Bucket) (f : Field) : Bucket :=
  ⟨b.fields.push f, b.index.insert f.handle b.fields.size⟩

def append (b : Bucket) (fs : List Field) : Bucket := fs.foldl push b

def get? (b : Bucket) (handle : String) : Option Field :=
  (b.index[handle]?).bind fun i => b.fields[i]?

end Bucket

/-- All fields, by content type. A content type without a bucket has no fields. -/
structure Registry where
  entries : Option Bucket
  terms : Option Bucket
  assets : Option Bucket
  globals : Option Bucket

namespace Registry

def bare : Registry := ⟨none, none, none, none⟩

def empty : Registry := ⟨some .empty, some .empty, some .empty, some .empty⟩

def bucket? (r : Registry) : ContentType → Option Bucket
  | .entry => r.entries
  | .term => r.terms
  | .asset => r.assets
  | .global => r.globals

def put (r : Registry) (t : ContentType) (b : Bucket) : Registry :=
  match t with
  | .entry => { r with entries := some b }
  | .term => { r with terms := some b }
  | .asset => { r with assets := some b }
  | .global => { r with globals := some b }

@[simp] theorem bucket?_put (r : Registry) (t u : ContentType) (b : Bucket) :
    (r.put t b).bucket? u = if u = t then some b else r.bucket? u := by
  cases t <;> cases u <;> rfl

def extend (r : Registry) (t : ContentType) (fs : List Field) : Registry :=
  r.put t (((r.bucket? t).getD .empty).append fs)

def fields (r : Registry) (t : ContentType) : List Field :=
  match r.bucket? t with
  | some b => b.fields.toList
  | none => []

def get? (r : Registry) (t : ContentType) (handle : String) : Option Field :=
  (r.bucket? t).bind fun b => b.get? handle

def fieldMap (r : Registry) (t : ContentType) : Dict Field :=
  .ofList ((r.fields t).map fun f => (f.handle, f))

def size (r : Registry) : Nat := (ContentType.all.flatMap r.fields).length

def isEmpty (r : Registry) : Bool := r.size == 0

end Registry

end BlueprintSchema
