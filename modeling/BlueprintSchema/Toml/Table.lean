import BlueprintSchema.Toml

/-!
Tables while they are being read. A table knows how it came to be, since that decides what may still
be added to it: one that stands under a header is complete after it, one that a dotted key made can
only be extended by dotted keys, and one that lies on the way of a header can still get a header.
-/

namespace BlueprintSchema.Toml

inductive Item
  | value (v : Toml)
  /-- A table: whether it only lies on the way to others, and whether a dotted key made it. -/
  | table (implicit dotted : Bool) (entries : List (String × Item))
  | rows (rows : List Item)
  deriving Inhabited

namespace Item

def blank : Item := table false false []

def set (entries : List (String × Item)) (k : String) (x : Item) : List (String × Item) :=
  entries.filter (·.1 != k) ++ [(k, x)]

/-- Change the table that some keys lead to, making the tables on the way that are missing. Dotted keys
do not lead into tables with a header. Of tables in rows the last is meant. -/
def change (dotted : Bool) (f : Item → Option Item) : List String → Item → Option Item
  | [], t => f t
  | k :: ks, table i d entries =>
    match entries.lookup k with
    | none =>
      (change dotted f ks (table true dotted [])).map fun c => table i d (set entries k c)
    | some (value _) => none
    | some (rows rs) => do
      let last ← rs.getLast?
      let c ← change dotted f ks last
      some (table i d (set entries k (rows (rs.dropLast ++ [c]))))
    | some (table i' d' es) =>
      if dotted && !i' then none
      else (change dotted f ks (table i' d' es)).map fun c => table i d (set entries k c)
  | _ :: _, _ => none

def assign (path : List String) (v : Toml) (t : Item) : Option Item := do
  let k ← path.getLast?
  let way := path.dropLast
  change true (fun
    | table i d entries =>
      if d == way.isEmpty || (entries.lookup k).isSome then none
      else some (table i d (set entries k (value v)))
    | _ => none) way t

def beginTable (path : List String) (t : Item) : Option Item := do
  let k ← path.getLast?
  change false (fun
    | table i d entries =>
      match entries.lookup k with
      | none => some (table i d (set entries k blank))
      | some (table true false es) => some (table i d (set entries k (table false false es)))
      | some _ => none
    | _ => none) path.dropLast t

def beginRow (path : List String) (t : Item) : Option Item := do
  let k ← path.getLast?
  change false (fun
    | table i d entries =>
      match entries.lookup k with
      | none => some (table i d (set entries k (rows [blank])))
      | some (rows rs) => some (table i d (set entries k (rows (rs ++ [blank]))))
      | some _ => none
    | _ => none) path.dropLast t

def assignAt (header path : List String) (v : Toml) (t : Item) : Option Item :=
  change false (assign path v) header t

mutual

def toToml : Item → Toml
  | value v => v
  | table _ _ entries => .table (toEntries entries)
  | rows rs => .array (toTomls rs)

def toTomls : List Item → List Toml
  | [] => []
  | x :: xs => x.toToml :: toTomls xs

def toEntries : List (String × Item) → List (String × Toml)
  | [] => []
  | (k, x) :: es => (k, x.toToml) :: toEntries es

end

end Item

end BlueprintSchema.Toml
