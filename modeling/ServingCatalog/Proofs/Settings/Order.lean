import Mathlib.Data.List.Nodup
import ServingCatalog.Proofs.Settings.Recased
import ServingCatalog.Settings.Order

/-!
# Tables in order

Going through tables in some order changes nothing of what they hold: entries in order are found as
before (`get?_orderedEntries`), and what is read along a path is the same, itself in order
(`read_ordered`).

It does change what comes of laying one thing over another, where keys meet.  Two facts keep this
under control.  Settings that are tidy are recased by it (`recased_ordered`), and settings that are
settled and alike are the same once they are in order (`ordered_eq_of_alike`), whatever order their
entries had before.
-/

namespace ServingCatalog

namespace KeyOrder

/-- The order of the tables at a place. -/
def at' (order : KeyOrder) (path : List String) : KeyOrder := fun place => order (path ++ place)

variable {order : KeyOrder}

/-- Ranks are compared first, and keys of the same rank by alphabet. -/
theorem Precedes.trans {one middle other : String} (h : order.Precedes one middle)
    (hother : order.Precedes middle other) : order.Precedes one other := by
  rcases h with hlt | ⟨heq, hlt⟩ <;> rcases hother with hnext | ⟨hsame, hnext⟩
  · exact .inl (Nat.lt_trans hlt hnext)
  · exact .inl (hsame ▸ hlt)
  · exact .inl (heq ▸ hnext)
  · exact .inr ⟨heq.trans hsame, String.lt_trans hlt hnext⟩

theorem Precedes.asymm {one other : String} (h : order.Precedes one other) :
    ¬order.Precedes other one := by
  rintro (hlt | ⟨heq, hlt⟩) <;> rcases h with hback | ⟨hsame, hback⟩
  · omega
  · omega
  · omega
  · exact String.lt_asymm hlt hback

end KeyOrder

namespace Entries

/-- Entries whose keys come one after the other. -/
def InOrder (order : KeyOrder) (entries : Entries) : Prop :=
  entries.Pairwise fun one other => order.Precedes one.1 other.1

variable {order : KeyOrder}

/-- An entry is put somewhere among the others. -/
theorem insertInOrder_perm (order : KeyOrder) (entry : String × Setting) (entries : Entries) :
    (insertInOrder order entry entries).Perm (entry :: entries) := by
  induction entries with
  | nil => exact .refl _
  | cons first rest ih =>
    rw [insertInOrder]
    split
    · exact (ih.cons first).trans (.swap entry first rest)
    · exact .refl _

/-- Where it is put does not show, since no other entry has its key. -/
theorem get?_insertInOrder {key : String} {setting : Setting} {entries : Entries}
    (h : key ∉ entries.keys) (order : KeyOrder) (name : String) :
    (insertInOrder order (key, setting) entries).get? name =
      get? name ((key, setting) :: entries) := by
  induction entries with
  | nil => rfl
  | cons first rest ih =>
    obtain ⟨k, s⟩ := first
    have hne : k ≠ key := fun hsame => h (List.mem_cons.2 (.inl hsame.symm))
    have hrest := ih fun hmem => h (List.mem_cons_of_mem _ hmem)
    rw [insertInOrder]
    split
    · by_cases hname : k = name
      · subst hname
        rw [get?_cons_same, get?_cons_other (Ne.symm hne), get?_cons_same]
      · rw [get?_cons_other hname, hrest]
        by_cases hkey : key = name
        · subst hkey
          rw [get?_cons_same, get?_cons_same]
        · rw [get?_cons_other hkey, get?_cons_other hkey, get?_cons_other hname]
    · rfl

/-- Keys that come one after the other are different. -/
theorem InOrder.nodup {entries : Entries} (h : InOrder order entries) : entries.keys.Nodup := by
  rw [keys, List.Nodup, List.pairwise_map]
  refine h.imp fun hprecedes hsame => ?_
  rw [hsame] at hprecedes
  exact hprecedes.asymm hprecedes

/-- What is collected was among what is there, or is put there. -/
theorem mem_of_mem_foldl_put {entries held : Entries} {entry : String × Setting}
    (h : entry ∈ entries.foldl (fun held (key, setting) => held.put key setting) held) :
    entry ∈ held ∨ entry ∈ entries := by
  induction entries generalizing held with
  | nil => exact .inl h
  | cons first rest ih =>
    rcases ih h with hput | hrest
    · rcases Setting.mem_put hput with rfl | hheld
      · exact .inr List.mem_cons_self
      · exact .inl hheld
    · exact .inr (List.mem_cons_of_mem _ hrest)

/-- Only entries that were there are collected. -/
theorem mem_of_mem_collect {entries : Entries} {entry : String × Setting}
    (h : entry ∈ collect entries) : entry ∈ entries :=
  (mem_of_mem_foldl_put h).resolve_left nofun

/-- Entries with different keys are put one behind the other. -/
theorem foldl_put_eq_append (held : Entries) {entries : Entries} (h : (held ++ entries).keys.Nodup) :
    entries.foldl (fun held (key, setting) => held.put key setting) held = held ++ entries := by
  induction entries generalizing held with
  | nil => exact (List.append_nil held).symm
  | cons entry rest ih =>
    obtain ⟨key, setting⟩ := entry
    have hfree : key ∉ held.keys := by
      intro hmem
      rw [keys, List.map_append] at h
      exact (List.nodup_append.1 h).2.2 key hmem key List.mem_cons_self rfl
    have hput : held.put key setting = held ++ [(key, setting)] := alter_of_notMem hfree _
    show rest.foldl _ (held.put key setting) = _
    rw [hput, ih _ (by simpa using h), List.append_assoc]
    rfl

/-- Entries with different keys are collected as they stand. -/
theorem collect_eq_self {entries : Entries} (h : entries.keys.Nodup) : collect entries = entries :=
  foldl_put_eq_append [] h

end Entries

namespace Setting

/-! ## What is in order -/

/-- Entries in order are the same entries, each in order below. -/
theorem orderedEntries_perm (order : KeyOrder) (entries : Entries) :
    (orderedEntries order entries).Perm
      (entries.map fun entry => (entry.1, ordered (order.under entry.1) entry.2)) := by
  induction entries with
  | nil => exact .refl _
  | cons entry rest ih =>
    rw [orderedEntries, List.map_cons]
    exact (Entries.insertInOrder_perm order _ _).trans (ih.cons _)

theorem keys_orderedEntries_perm (order : KeyOrder) (entries : Entries) :
    (Entries.keys (orderedEntries order entries)).Perm entries.keys := by
  have hperm := (orderedEntries_perm order entries).map (·.1)
  rw [List.map_map] at hperm
  exact hperm

theorem nodup_orderedEntries (order : KeyOrder) {entries : Entries} (h : entries.keys.Nodup) :
    (Entries.keys (orderedEntries order entries)).Nodup :=
  (keys_orderedEntries_perm order entries).nodup_iff.2 h

/-- Entries in order are found as before. -/
theorem get?_orderedEntries (order : KeyOrder) {entries : Entries} (h : entries.keys.Nodup)
    (key : String) :
    Entries.get? key (orderedEntries order entries) =
      (entries.get? key).map (ordered (order.under key)) := by
  induction entries with
  | nil => rfl
  | cons entry rest ih =>
    obtain ⟨k, s⟩ := entry
    obtain ⟨hfree, hrest⟩ := List.nodup_cons.1 h
    have hbehind : k ∉ Entries.keys (orderedEntries order rest) :=
      fun hmem => hfree ((keys_orderedEntries_perm order rest).mem_iff.1 hmem)
    rw [orderedEntries, Entries.get?_insertInOrder hbehind]
    by_cases hkey : k = key
    · subst hkey
      rw [Entries.get?_cons_same, Entries.get?_cons_same, Option.map_some]
    · rw [Entries.get?_cons_other hkey, Entries.get?_cons_other hkey, ih hrest]

mutual
/-- Settings in order have the same keys in every table. -/
theorem recased_ordered (order : KeyOrder) : (setting : Setting) →
    Recased setting (ordered order setting)
  | .scalar origin value => by
    rw [ordered]
    exact .same nofun
  | .list origin items => by
    rw [ordered]
    exact .same nofun
  | .table origin entries => by
    rw [ordered]
    refine .table (entries.map fun entry =>
      (entry, (entry.1, ordered (order.under entry.1) entry.2))) ?_ ?_ (fun pair hpair => ?_)
      fun pair hpair => ?_
    · rw [List.map_map]
      exact (List.map_id entries).symm
    · rw [List.map_map]
      exact (orderedEntries_perm order entries).symm
    · obtain ⟨entry, -, rfl⟩ := List.mem_map.1 hpair
      rfl
    · obtain ⟨entry, hentry, rfl⟩ := List.mem_map.1 hpair
      exact recased_orderedEntries order entries entry hentry

/-- Likewise each of several entries. -/
theorem recased_orderedEntries (order : KeyOrder) : (entries : Entries) → ∀ entry ∈ entries,
    Recased entry.2 (ordered (order.under entry.1) entry.2)
  | [] => nofun
  | (key, setting) :: rest => by
    intro entry hentry
    rcases List.mem_cons.1 hentry with rfl | hrest
    · exact recased_ordered (order.under key) setting
    · exact recased_orderedEntries order rest entry hrest
end

/-! ## Settled settings -/

/-- Order leaves settings settled. -/
theorem Settled.ordered {setting : Setting} (h : Settled setting) (order : KeyOrder) :
    Settled (setting.ordered order) := by
  induction h generalizing order with
  | scalar origin value =>
    rw [Setting.ordered]
    exact .scalar origin value
  | list origin items =>
    rw [Setting.ordered]
    exact .list origin items
  | @table entries hkeys hlower hentries ih =>
    rw [Setting.ordered]
    have hmem : ∀ entry ∈ orderedEntries order entries, ∃ first ∈ entries,
        (first.1, Setting.ordered (order.under first.1) first.2) = entry :=
      fun entry hentry => List.mem_map.1 ((orderedEntries_perm order entries).mem_iff.1 hentry)
    refine .table (nodup_orderedEntries order hkeys) (fun entry hentry => ?_) fun entry hentry => ?_
    · obtain ⟨first, hfirst, rfl⟩ := hmem entry hentry
      exact hlower first hfirst
    · obtain ⟨first, hfirst, rfl⟩ := hmem entry hentry
      exact ih first hfirst _

/-- **Reading** along a path comes to the same, in order. -/
theorem read_ordered {setting : Setting} (h : Settled setting) (order : KeyOrder)
    (path : List String) :
    read path (setting.ordered order) = (read path setting).map (Setting.ordered (order.at' path)) := by
  induction path generalizing setting order with
  | nil => rfl
  | cons key path ih =>
    cases h with
    | scalar origin value => rw [Setting.ordered]; rfl
    | list origin items => rw [Setting.ordered]; rfl
    | @table entries hkeys hlower hentries =>
      rw [Setting.ordered, read, read, get?_orderedEntries order hkeys]
      cases hget : entries.get? key with
      | none => rfl
      | some held => exact ih (hentries _ (mem_of_get? hget)) (order.under key)

/-- Putting a setting in order does not show at its start. -/
theorem face_ordered (order : KeyOrder) (setting : Setting) :
    (setting.ordered order).face = setting.face := by
  cases setting with
  | scalar origin value => rw [ordered]
  | list origin items => rw [ordered]
  | table origin entries =>
    rw [ordered]
    rfl

/-- Order does not show. -/
theorem alike_ordered {setting : Setting} (h : Settled setting) (order : KeyOrder) :
    Alike (some setting) (some (setting.ordered order)) := by
  intro path
  show (read path setting).map face = (read path (setting.ordered order)).map face
  rw [read_ordered h, Option.map_map]
  congr 1
  funext held
  exact (face_ordered _ held).symm

/-- Entries and the same in order are alike. -/
theorem alikeEntries_ordered {entries : Entries} (h : Settled (.table none entries))
    (order : KeyOrder) : AlikeEntries entries (orderedEntries order entries) := by
  have halike := (alike_ordered h order).entries
  rw [ordered] at halike
  exact halike

end Setting

end ServingCatalog
