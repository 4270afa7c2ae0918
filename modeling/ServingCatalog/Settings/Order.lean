import ServingCatalog.Settings.Path

/-!
# The order in which tables are gone through

The keys of a table have no order of their own, but entries are laid over others one after the
other, and where two keys meet, in different letters or at the end of a path, the later one counts.
A `KeyOrder` says in what order the keys of each table are taken; which one it is, is open.
-/

namespace ServingCatalog

/-- How the keys of the table at a place rank. What ranks lower comes first, and of keys of the same
rank the smaller one. -/
abbrev KeyOrder := List String → String → Nat

namespace KeyOrder

/-- The order of the tables below a key. -/
def under (order : KeyOrder) (key : String) : KeyOrder := fun place => order (key :: place)

/-- Whether a key of the outermost table comes before another one. -/
def Precedes (order : KeyOrder) (one other : String) : Prop :=
  order [] one < order [] other ∨ order [] one = order [] other ∧ one < other

instance (order : KeyOrder) (one other : String) : Decidable (order.Precedes one other) :=
  inferInstanceAs (Decidable (_ ∨ _))

end KeyOrder

namespace Entries

/-- Puts each of several entries among those before it. -/
def collect (entries : List (String × Setting)) : Entries :=
  entries.foldl (fun held (key, setting) => held.put key setting) []

/-- Puts an entry among others that are in order. -/
def insertInOrder (order : KeyOrder) (entry : String × Setting) : Entries → Entries
  | [] => [entry]
  | first :: rest =>
    if order.Precedes first.1 entry.1 then first :: insertInOrder order entry rest
    else entry :: first :: rest

end Entries

namespace Setting

mutual
/-- A setting with the entries of its tables in order. What is in a list is left as it is: a list is
never gone through. -/
def ordered (order : KeyOrder) : Setting → Setting
  | .scalar origin value => .scalar origin value
  | .list origin items => .list origin items
  | .table origin entries => .table origin (orderedEntries order entries)

/-- Entries in order, and those of the tables below them. -/
def orderedEntries (order : KeyOrder) : Entries → Entries
  | [] => []
  | (key, setting) :: rest =>
    Entries.insertInOrder order (key, ordered (order.under key) setting)
      (orderedEntries order rest)
end

end Setting

end ServingCatalog
