import ServingCatalog.Proofs.Settings.Order
import ServingCatalog.Proofs.Settings.Places

/-!
# Keys of one step

A key such as `a.b` is a path, and writing to it makes a table of its own.  In the settings that are
made so, all keys are one step each: identifiers that stood in a path, or keys that spell none
(`PlainTable`).  Only a key that spells a path in small letters, and none as it stands, gets
through.

So what is merged can be laid over nothing, and is then as it was, in order (`assignAll_nil`).  A
layer can be laid in any order (`IsLayer.laysAlike`).
-/

namespace ServingCatalog

namespace Path

/-! ## Identifiers in small letters -/

/-- A plain identifier is one in any case. -/
theorem IsIdentifier.recased {key name : String} (h : IsIdentifier key.toList)
    (hcase : Text.SameButCase key name) : IsIdentifier name.toList := by
  have hnil : name.toList.map Char.toLower ≠ [] := by
    rw [← hcase, ne_eq, List.map_eq_nil_iff]
    exact h.ne_nil
  refine ⟨fun hempty => hnil (by rw [hempty, List.map_nil]), fun c hc => ?_⟩
  have hmem : c.toLower ∈ key.toList.map Char.toLower := by
    rw [hcase]
    exact List.mem_map_of_mem hc
  obtain ⟨d, hd, hlower⟩ := List.mem_map.1 hmem
  rcases Text.eq_or_isAlpha_of_toLower_eq hlower with hsame | ⟨-, halpha⟩
  · rw [← hsame]
    exact h.isKeyChar d hd
  · simp [Path.isKeyChar, Char.isAlphanum, halpha]

/-- All characters of keys are those of ASCII. -/
theorem lt_of_isKeyChar {c : Char} (h : isKeyChar c = true) : c.toNat < 0x80 := by
  simp only [isKeyChar, Char.isAlphanum, Bool.or_eq_true, decide_eq_true_eq] at h
  rcases h with (((halpha | hdigit) | rfl) | rfl) | rfl
  · rw [Text.isAlpha_iff] at halpha
    omega
  · rw [Json.Numeral.isDigit_iff] at hdigit
    omega
  · decide
  · decide
  · decide

/-- In small letters an identifier is one. -/
theorem IsIdentifier.lower {key : String} (h : IsIdentifier key.toList) :
    IsIdentifier (Text.lower key).toList := by
  have hcase : Text.SameButCase key (String.ofList (key.toList.map Char.toLower)) := by
    rw [Text.SameButCase, String.toList_ofList, List.map_map]
    refine List.map_congr_left fun c _ => ?_
    have hnat := Text.toNat_toLower c
    rw [Function.comp_apply, ← Char.toNat_inj, Text.toNat_toLower c.toLower]
    split at hnat <;> split <;> omega
  have hsmall : Text.lower (String.ofList (key.toList.map Char.toLower)) =
      String.ofList (key.toList.map Char.toLower) := by
    refine Text.lower_eq_self fun c hc => ?_
    rw [String.toList_ofList] at hc
    obtain ⟨d, hd, rfl⟩ := List.mem_map.1 hc
    have hascii := lt_of_isKeyChar (h.isKeyChar d hd)
    have hnat := Text.toNat_toLower d
    split at hnat
    · exact Text.isSmall_of_lt (by omega) (by omega)
    · exact Text.isSmall_of_lt (by omega) (by omega)
  rw [Text.lower_eq_of_sameButCase hcase, hsmall]
  exact h.recased hcase

/-- The characters of keys that a text starts with, if there are any. -/
theorem isIdentifier_takeWhile {text : List Char} (h : text.takeWhile isKeyChar ≠ []) :
    IsIdentifier (text.takeWhile isKeyChar) :=
  ⟨h, fun c hc => List.all_eq_true.1 List.all_takeWhile c hc⟩

/-! ## First steps -/

/-- A key whose first step, in small letters, is a key of one step. -/
def StartsPlain (key : String) : Prop := IsPlain (Text.lower (ofKey key).root)

/-- The first step of a path is an identifier. -/
theorem startsPlain_of_parse? {key : String} {path : Path} (h : parse? key = some path) :
    StartsPlain key := by
  have hroot : IsIdentifier path.root.toList := by
    simp only [parse?] at h
    cases hname : key.toList.takeWhile isKeyChar with
    | nil =>
      rw [hname] at h
      cases h
    | cons c name =>
      rw [hname] at h
      obtain ⟨steps, -, rfl⟩ := Option.map_eq_some_iff.1 h
      rw [String.toList_ofList, ← hname]
      exact isIdentifier_takeWhile (by rw [hname]; exact List.cons_ne_nil c name)
  rw [StartsPlain, ofKey, h]
  exact hroot.lower.isPlain

/-- A key in small letters that spells no path is one step by itself. -/
theorem startsPlain_of_lower {key : String} (h : Text.lower key = key) : StartsPlain key := by
  cases hparse : parse? key with
  | some path => exact startsPlain_of_parse? hparse
  | none =>
    have hkey : ofKey key = ⟨key, []⟩ := by
      rw [ofKey, hparse]
      rfl
    rw [StartsPlain, hkey, h]
    exact hkey

/-- An identifier is one step by itself. -/
theorem IsIdentifier.startsPlain {key : String} (h : IsIdentifier key.toList) : StartsPlain key := by
  have hkey : ofKey key = ⟨key, []⟩ := h.isPlain
  rw [StartsPlain, hkey]
  exact h.lower.isPlain

end Path

namespace Setting

/-! ## Tables whose keys are one step each -/

/-- The keys of a table are one step each. -/
def PlainTable (entries : Entries) : Prop := ∀ entry ∈ entries, Path.IsPlain entry.1

theorem plainTable_nil : PlainTable [] := by
  intro entry hentry
  cases hentry

/-- Writing makes an entry under the first step of a key. -/
theorem plainTable_assign {below next : Entries} (h : PlainTable below) {key : String}
    (hkey : Path.StartsPlain key) {setting : Setting} (hnext : assign below key setting = .ok next) :
    PlainTable next := by
  simp only [assign] at hnext
  split at hnext
  next written hwritten =>
    rw [← Except.ok.inj hnext]
    intro entry hentry
    rcases mem_put hentry with rfl | hold
    · exact hkey
    · exact h entry hold
  next => cases hnext

/-- Writing to keys that start so keeps all keys so. -/
theorem plainTable_assignAll {source : List (String × Setting)}
    (hsource : ∀ entry ∈ source, Path.StartsPlain entry.1) {below next : Entries}
    (h : PlainTable below) (hnext : assignAll below source = .ok next) : PlainTable next :=
  foldlM_keeps (fun entry hentry _ _ hbelow hassign =>
    plainTable_assign hbelow (hsource entry hentry) hassign) h hnext

/-- What holds of the keys of entries holds of them in any order. -/
theorem forall_orderedEntries (holds : String → Prop) {entries : Entries}
    (h : ∀ entry ∈ entries, holds entry.1) (order : KeyOrder) :
    ∀ entry ∈ orderedEntries order entries, holds entry.1 := by
  intro entry hentry
  obtain ⟨first, hfirst, rfl⟩ :=
    List.mem_map.1 ((orderedEntries_perm order entries).mem_iff.1 hentry)
  exact h first hfirst

/-! ## Laying over nothing -/

/-- Entries in small letters with new keys, which are laid over nothing as they stand, come behind
those that are there. -/
theorem overlayEntries_eq_append (below : Entries) {above : Entries} (hkeys : (below ++ above).keys.Nodup)
    (hlower : ∀ entry ∈ above, Text.lower entry.1 = entry.1)
    (hsettings : ∀ entry ∈ above, overlay none entry.2 = entry.2) :
    overlayEntries below above = below ++ above := by
  induction above generalizing below with
  | nil => rw [overlayEntries, List.append_nil]
  | cons entry rest ih =>
    obtain ⟨key, setting⟩ := entry
    have hlowerKey : Text.lower key = key := hlower (key, setting) List.mem_cons_self
    have hsetting : overlay none setting = setting := hsettings (key, setting) List.mem_cons_self
    have hfree : key ∉ below.keys := by
      intro hmem
      rw [Entries.keys, List.map_append] at hkeys
      exact (List.nodup_append.1 hkeys).2.2 key hmem key List.mem_cons_self rfl
    rw [overlayEntries, hlowerKey, Entries.alter_of_notMem hfree, hsetting,
      ih _ (by simpa using hkeys) (fun other hother => hlower other (List.mem_cons_of_mem _ hother))
        fun other hother => hsettings other (List.mem_cons_of_mem _ hother)]
    simp

/-- What is settled is laid over nothing as it stands. -/
theorem Settled.overlay_none {setting : Setting} (h : Settled setting) :
    overlay none setting = setting := by
  induction h with
  | scalar origin value => rw [overlay]
  | list origin items => rw [overlay]
  | @table entries hkeys hlower hentries ih =>
    cases entries with
    | nil => rfl
    | cons entry rest =>
      rw [overlay]
      exact congrArg (Setting.table none) (overlayEntries_eq_append [] hkeys hlower ih)

/-- **Laying over nothing** leaves settings as they are, in order. -/
theorem assignAll_nil {entries : Entries} (h : Settled (.table none entries))
    (hplain : PlainTable entries) (order : KeyOrder) :
    assignAll [] (orderedEntries order entries) = .ok (orderedEntries order entries) := by
  have hordered := h.ordered order
  rw [ordered] at hordered
  rw [assignAll_of_isPlain (forall_orderedEntries Path.IsPlain hplain order)]
  exact congrArg Except.ok (overlayEntries_eq_append [] hordered.nodup hordered.lower
    fun entry hentry => (hordered.settings entry hentry).overlay_none)

/-! ## Layers -/

/-- A layer: the keys of its outermost table are plain identifiers, and no two keys of one table are
the same in small letters. -/
structure IsLayer (source : List (String × Setting)) : Prop where
  identifiers : ∀ entry ∈ source, Path.IsIdentifier entry.1.toList
  tidy : (Setting.table none source).Tidy

namespace IsLayer

variable {source other : List (String × Setting)}

theorem isPlain (h : IsLayer source) : PlainTable source :=
  fun entry hentry => (h.identifiers entry hentry).isPlain

theorem startsPlain (h : IsLayer source) : ∀ entry ∈ source, Path.StartsPlain entry.1 :=
  fun entry hentry => (h.identifiers entry hentry).startsPlain

/-- A layer is laid over what is held as a table. -/
theorem assignAll (h : IsLayer source) (below : Entries) :
    Setting.assignAll below source = .ok (overlayEntries below source) :=
  assignAll_of_isPlain h.isPlain below

/-- In order, its keys are the same. -/
theorem recased_ordered (order : KeyOrder) :
    Recased (.table none source) (.table none (orderedEntries order source)) := by
  have hrecased := Setting.recased_ordered order (.table none source)
  rwa [ordered] at hrecased

/-- A layer in order is one. -/
theorem ordered (h : IsLayer source) (order : KeyOrder) : IsLayer (orderedEntries order source) :=
  ⟨forall_orderedEntries (fun key => Path.IsIdentifier key.toList) h.identifiers order,
    (recased_ordered order).tidy h.tidy⟩

/-- Layers that are recased into each other are laid alike. -/
theorem laysAlike_of_recased (h : IsLayer source) (hother : IsLayer other)
    (hrecased : Recased (.table none source) (.table none other)) : LaysAlike source other := by
  intro below above hbelow
  exact ⟨_, _, h.assignAll below, hother.assignAll above, hrecased.alike_overlayEntries h.tidy hbelow⟩

/-- **The order of a layer.**  A layer is laid alike in any order. -/
theorem laysAlike (h : IsLayer source) (order : KeyOrder) :
    LaysAlike source (orderedEntries order source) :=
  h.laysAlike_of_recased (h.ordered order) (recased_ordered order)

end IsLayer

/-! ## Scalars in order -/

/-- Scalars in order are the same ones. -/
theorem orderedEntries_perm_of_scalars {source : List (String × Setting)}
    (h : ∀ entry ∈ source, ∃ origin value, entry.2 = .scalar origin value) (order : KeyOrder) :
    (orderedEntries order source).Perm source := by
  have hperm := orderedEntries_perm order source
  have hsame : source.map (fun entry => (entry.1, ordered (order.under entry.1) entry.2)) =
      source := by
    refine (List.map_congr_left fun entry hentry => ?_).trans (List.map_id source)
    obtain ⟨origin, value, hscalar⟩ := h entry hentry
    rw [hscalar, ordered, ← hscalar]
    rfl
  rwa [hsame] at hperm

/-- Scalars at places are laid alike in any order. -/
theorem Scattered.laysAlike {place : String → List String} {source : List (String × Setting)}
    (h : Scattered place source) (order : KeyOrder) :
    LaysAlike source (orderedEntries order source) :=
  laysAlike_of_perm h (orderedEntries_perm_of_scalars h.scalar order).symm

end Setting

end ServingCatalog
