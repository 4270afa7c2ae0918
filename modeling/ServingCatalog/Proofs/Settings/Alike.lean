import ServingCatalog.Proofs.Settings.Walk
import ServingCatalog.Proofs.Text.LetterCase

/-!
# Settings that are alike

The entries of a table have an order, and tables have an origin, but neither is a setting.  Settings
are `Alike` if the same shows of them along all paths: everything of scalars and lists, and of a
table only that it is one, since what it holds shows further along.

Writing scalars keeps settings alike (`alikeOutcome_assignAll`).  A table that holds a key twice has
an entry that shows along no path; writing and laying over make none of them, and leave all keys in
small letters (`Settled`, `settled_assignAll`).
-/

namespace ServingCatalog

/-- A computation in two steps succeeds if both steps do. -/
theorem exists_of_bind_eq_ok {ε α β : Type} {first : Except ε α} {later : α → Except ε β} {last : β}
    (h : first >>= later = .ok last) : ∃ middle, first = .ok middle ∧ later middle = .ok last := by
  cases first with
  | error fault => cases h
  | ok middle => exact ⟨middle, rfl, h⟩

/-- What each step of a fold keeps, the whole fold keeps. -/
theorem foldlM_keeps {ε α β : Type} {step : β → α → Except ε β} {Inv : β → Prop} {items : List α}
    (hstep : ∀ item ∈ items, ∀ below next, Inv below → step below item = .ok next → Inv next)
    {start last : β} (hstart : Inv start) (h : items.foldlM step start = .ok last) : Inv last := by
  induction items generalizing start with
  | nil =>
    rw [← Except.ok.inj h]
    exact hstart
  | cons item rest ih =>
    rw [List.foldlM_cons] at h
    obtain ⟨next, hfirst, hrest⟩ := exists_of_bind_eq_ok h
    exact ih (fun other hother => hstep other (List.mem_cons_of_mem item hother))
      (hstep item List.mem_cons_self start next hstart hfirst) hrest

/-- What is there at most once is found in any order. -/
theorem find?_of_perm {α : Type} {wanted : α → Bool} {one other : List α} (h : one.Perm other)
    (honce : one.Pairwise fun entry later => ¬(wanted entry = true ∧ wanted later = true)) :
    one.find? wanted = other.find? wanted := by
  induction h with
  | nil => rfl
  | cons entry _ ih => rw [List.find?_cons, List.find?_cons, ih (List.pairwise_cons.1 honce).2]
  | swap entry first rest =>
    have hnot := (List.pairwise_cons.1 honce).1 entry List.mem_cons_self
    by_cases hfirst : wanted first = true
    · have hentry : wanted entry = false := by
        rw [← Bool.not_eq_true]
        exact fun hboth => hnot ⟨hfirst, hboth⟩
      simp [hfirst, hentry]
    · simp [List.find?_cons, hfirst]
  | trans hone _ ihone ihother =>
    have hmiddle := (hone.pairwise_iff fun hnot hboth => hnot hboth.symm).1 honce
    rw [ihone honce, ihother hmiddle]

namespace Setting

/-! ## What shows -/

/-- What shows of a setting where it stands: of a table only that it is one. -/
def face : Setting → Setting
  | .scalar origin value => .scalar origin value
  | .list origin items => .list origin items
  | .table _ _ => .table none []

/-- Settings of which the same shows along all paths. -/
def Alike (one other : Option Setting) : Prop :=
  ∀ path, (one.bind (read path)).map face = (other.bind (read path)).map face

/-- Entries that hold for each key what is alike. -/
def AlikeEntries (one other : Entries) : Prop :=
  ∀ key, Alike (one.get? key) (other.get? key)

theorem Alike.refl (held : Option Setting) : Alike held held := fun _ => rfl

theorem Alike.trans {one middle other : Option Setting} (h : Alike one middle)
    (hother : Alike middle other) : Alike one other := fun path => (h path).trans (hother path)

theorem Alike.symm {one other : Option Setting} (h : Alike one other) : Alike other one :=
  fun path => (h path).symm

theorem AlikeEntries.refl (entries : Entries) : AlikeEntries entries entries :=
  fun _ => .refl _

theorem AlikeEntries.trans {one middle other : Entries} (h : AlikeEntries one middle)
    (hother : AlikeEntries middle other) : AlikeEntries one other :=
  fun key => (h key).trans (hother key)

theorem AlikeEntries.symm {one other : Entries} (h : AlikeEntries one other) :
    AlikeEntries other one := fun key => (h key).symm

/-- A path goes through its first key, whether there is a table or not. -/
theorem bind_read_cons (held : Option Setting) (key : String) (path : List String) :
    held.bind (read (key :: path)) =
      (((held.map entries).getD []).get? key).bind (read path) := by
  rcases held with _ | ⟨_ | _ | _⟩ <;> rfl

/-- Tables that are alike have entries that are. -/
theorem Alike.entries {one other : Option Setting} (h : Alike one other) :
    AlikeEntries ((one.map entries).getD []) ((other.map Setting.entries).getD []) := by
  intro key path
  rw [← bind_read_cons, ← bind_read_cons]
  exact h (key :: path)

/-- Where a table was read does not show. -/
theorem alike_table {one other : Entries} (h : AlikeEntries one other)
    (origin place : Option String) :
    Alike (some (.table origin one)) (some (.table place other)) := by
  intro path
  cases path with
  | nil => rfl
  | cons key path => exact h key path

/-- What is alike looks the same at its start. -/
theorem Alike.map_face {one other : Option Setting} (h : Alike one other) :
    one.map face = other.map face := by
  have hstart := h []
  cases one <;> cases other <;> exact hstart

/-- Settings that are alike are the same, unless they are tables. -/
theorem Alike.eq_or_tables {one other : Setting} (h : Alike (some one) (some other)) :
    one = other ∨ ∃ origin entries place others,
      one = .table origin entries ∧ other = .table place others ∧
        AlikeEntries entries others := by
  have hface : one.face = other.face := Option.some.inj h.map_face
  cases one with
  | scalar origin value => cases other <;> first | exact .inl hface | cases hface
  | list origin items => cases other <;> first | exact .inl hface | cases hface
  | table origin entries =>
    cases other with
    | scalar place value => cases hface
    | list place items => cases hface
    | table place others =>
      exact .inr ⟨origin, entries, place, others, rfl, rfl, h.entries⟩

theorem Alike.items {one other : Option Setting} (h : Alike one other) :
    (one.map items).getD [] = (other.map Setting.items).getD [] := by
  have hface := h.map_face
  rcases one with _ | ⟨_ | _ | _⟩ <;> rcases other with _ | ⟨_ | _ | _⟩ <;> cases hface <;> rfl

theorem Alike.listOrigin {one other : Option Setting} (h : Alike one other) :
    one.bind listOrigin = other.bind Setting.listOrigin := by
  have hface := h.map_face
  rcases one with _ | ⟨_ | _ | _⟩ <;> rcases other with _ | ⟨_ | _ | _⟩ <;> cases hface <;> rfl

/-! ## Writing scalars -/

/-- Putting in settings that are alike keeps entries alike. -/
theorem AlikeEntries.put {one other : Entries} (h : AlikeEntries one other) {key : String}
    {setting changed : Setting} (hsetting : Alike (some setting) (some changed)) :
    AlikeEntries (one.put key setting) (other.put key changed) := by
  intro name
  by_cases hname : key = name
  · rw [← hname, Entries.get?_put_same, Entries.get?_put_same]
    exact hsetting
  · rw [Entries.get?_put_other hname, Entries.get?_put_other hname]
    exact h name

/-- What can be written into one of two settings that are alike can be written into the other, and
leaves them alike.  The induction is on the path; from a position in a list on, both are the
same. -/
theorem exists_write?_alike {origin : Option String} {value : Scalar} {steps : List PathStep}
    {one other : Option Setting} {written : Setting} (h : Alike one other)
    (hwritten : write? (.scalar origin value) steps one = some written) :
    ∃ changed, write? (.scalar origin value) steps other = some changed ∧
      Alike (some written) (some changed) := by
  induction steps generalizing one other written with
  | nil =>
    have hscalar : written = .scalar origin value := (Option.some.inj hwritten).symm
    rw [hscalar]
    exact ⟨.scalar origin value, rfl, .refl _⟩
  | cons step steps ih =>
    cases step with
    | key name =>
      rw [write?, Option.map_eq_some_iff] at hwritten
      obtain ⟨inner, hinner, rfl⟩ := hwritten
      obtain ⟨changed, hchanged, halike⟩ := ih (h.entries (Text.lower name)) hinner
      refine ⟨.table (other.bind tableOrigin) _, ?_, alike_table (h.entries.put halike) _ _⟩
      simp only [write?, hchanged, Option.map_some]
    | index position =>
      refine ⟨written, ?_, .refl _⟩
      rw [← hwritten]
      simp only [write?, h.items, h.listOrigin]

/-- The same fault, or entries that are alike. -/
inductive AlikeOutcome : Except SettingFault Entries → Except SettingFault Entries → Prop
  | error (fault : SettingFault) : AlikeOutcome (.error fault) (.error fault)
  | ok {next last : Entries} (h : AlikeEntries next last) : AlikeOutcome (.ok next) (.ok last)

namespace AlikeOutcome

variable {one other : Except SettingFault Entries}

/-- Outcomes stay alike under steps that keep entries alike. -/
theorem bind {f g : Entries → Except SettingFault Entries} (h : AlikeOutcome one other)
    (hnext : ∀ next last, AlikeEntries next last → AlikeOutcome (f next) (g last)) :
    AlikeOutcome (one >>= f) (other >>= g) := by
  cases h with
  | error fault => exact .error fault
  | ok h => exact hnext _ _ h

theorem refl (one : Except SettingFault Entries) : AlikeOutcome one one := by
  cases one with
  | error fault => exact .error fault
  | ok next => exact .ok (.refl next)

/-- Where one succeeds, the other does. -/
theorem exists_ok {next : Entries} (h : AlikeOutcome (.ok next) other) :
    ∃ last, other = .ok last ∧ AlikeEntries next last := by
  cases h with
  | ok h => exact ⟨_, rfl, h⟩

end AlikeOutcome

/-- A scalar is written into entries that are alike in the same way. -/
theorem alikeOutcome_assign {one other : Entries} (h : AlikeEntries one other) (key : String)
    (origin : Option String) (value : Scalar) :
    AlikeOutcome (assign one key (.scalar origin value)) (assign other key (.scalar origin value)) := by
  have hheld := h (Text.lower (Path.ofKey key).root)
  simp only [assign]
  cases hone : write? (.scalar origin value) (Path.ofKey key).steps
      (one.get? (Text.lower (Path.ofKey key).root)) with
  | some written =>
    obtain ⟨changed, hchanged, halike⟩ := exists_write?_alike hheld hone
    rw [hchanged]
    exact .ok (h.put halike)
  | none =>
    cases hother : write? (.scalar origin value) (Path.ofKey key).steps
        (other.get? (Text.lower (Path.ofKey key).root)) with
    | none => exact .error _
    | some changed =>
      obtain ⟨written, hwritten, -⟩ := exists_write?_alike hheld.symm hother
      rw [hone] at hwritten
      cases hwritten

/-- **Writing keeps alike.**  So are scalars, one after the other. -/
theorem alikeOutcome_assignAll {source : List (String × Setting)}
    (hscalar : ∀ entry ∈ source, ∃ origin value, entry.2 = .scalar origin value)
    {one other : Entries} (h : AlikeEntries one other) :
    AlikeOutcome (assignAll one source) (assignAll other source) := by
  induction source generalizing one other with
  | nil => exact .ok h
  | cons entry rest ih =>
    obtain ⟨key, setting⟩ := entry
    obtain ⟨origin, value, rfl⟩ := hscalar (key, setting) List.mem_cons_self
    rw [assignAll, assignAll, List.foldlM_cons, List.foldlM_cons]
    exact (alikeOutcome_assign h key origin value).bind fun next last halike =>
      ih (fun later hlater => hscalar later (List.mem_cons_of_mem _ hlater)) halike

/-! ## Sources that are laid alike -/

/-- Sources that can both be laid over whatever is held, and make entries that are alike of entries
that are. -/
def LaysAlike (source other : List (String × Setting)) : Prop :=
  ∀ below above : Entries, AlikeEntries below above →
    ∃ next last, assignAll below source = .ok next ∧ assignAll above other = .ok last ∧
      AlikeEntries next last

theorem LaysAlike.symm {source other : List (String × Setting)} (h : LaysAlike source other) :
    LaysAlike other source := by
  intro below above hbelow
  obtain ⟨next, last, hnext, hlast, halike⟩ := h above below hbelow.symm
  exact ⟨last, next, hlast, hnext, halike.symm⟩

theorem LaysAlike.trans {source middle other : List (String × Setting)}
    (h : LaysAlike source middle) (hother : LaysAlike middle other) : LaysAlike source other := by
  intro below above hbelow
  obtain ⟨next, between, hnext, hbetween, hfirst⟩ := h below below (.refl below)
  obtain ⟨again, last, hagain, hlast, hsecond⟩ := hother below above hbelow
  rw [hbetween, Except.ok.injEq] at hagain
  subst hagain
  exact ⟨next, last, hnext, hlast, hfirst.trans hsecond⟩

/-- As outcomes: neither of the two makes a fault. -/
theorem LaysAlike.alikeOutcome {source other : List (String × Setting)} (h : LaysAlike source other)
    {below above : Entries} (hbelow : AlikeEntries below above) :
    AlikeOutcome (assignAll below source) (assignAll above other) := by
  obtain ⟨next, last, hnext, hlast, halike⟩ := h below above hbelow
  rw [hnext, hlast]
  exact .ok halike

/-! ## Settings that are settled -/

/-- What is held while sources are written: the keys of a table are in small letters, none is there
twice, and the table was written nowhere.  Tables in lists are not looked at. -/
inductive Settled : Setting → Prop
  | scalar (origin : Option String) (value : Scalar) : Settled (.scalar origin value)
  | list (origin : Option String) (items : List Setting) : Settled (.list origin items)
  | table {entries : Entries} (hkeys : entries.keys.Nodup)
      (hlower : ∀ entry ∈ entries, Text.lower entry.1 = entry.1)
      (hentries : ∀ entry ∈ entries, Settled entry.2) : Settled (.table none entries)

theorem settled_nil : Settled (.table none []) :=
  .table List.nodup_nil nofun nofun

/-- No table holds a key twice. -/
theorem Settled.nodup {origin : Option String} {entries : Entries}
    (h : Settled (.table origin entries)) : entries.keys.Nodup := by
  cases h with
  | table hkeys _ _ => exact hkeys

/-- Keys of settled entries are in small letters. -/
theorem Settled.lower {origin : Option String} {entries : Entries}
    (h : Settled (.table origin entries)) : ∀ entry ∈ entries, Text.lower entry.1 = entry.1 := by
  cases h with
  | table _ hlower _ => exact hlower

theorem Settled.settings {origin : Option String} {entries : Entries}
    (h : Settled (.table origin entries)) : ∀ entry ∈ entries, Settled entry.2 := by
  cases h with
  | table _ _ hentries => exact hentries

/-- A table that is held was written nowhere. -/
theorem Settled.place {origin : Option String} {entries : Entries}
    (h : Settled (.table origin entries)) : Settled (.table none entries) := by
  cases h with
  | table hkeys hlower hentries => exact .table hkeys hlower hentries

/-- A settled table was not read at any place. -/
theorem Settled.tableOrigin {held : Option Setting} (h : ∀ setting ∈ held, Settled setting) :
    held.bind tableOrigin = none := by
  cases held with
  | none => rfl
  | some setting => cases h setting rfl <;> rfl

/-- What is found is one of the entries. -/
theorem mem_of_get? {key : String} {setting : Setting} {entries : Entries}
    (h : entries.get? key = some setting) : (key, setting) ∈ entries := by
  induction entries with
  | nil => cases h
  | cons entry rest ih =>
    obtain ⟨k, s⟩ := entry
    by_cases hkey : k = key
    · subst hkey
      rw [Entries.get?_cons_same] at h
      rw [Option.some.inj h]
      exact List.mem_cons_self
    · rw [Entries.get?_cons_other hkey] at h
      exact List.mem_cons_of_mem _ (ih h)

/-- What is found in settled entries is settled. -/
theorem Settled.get? {origin : Option String} {entries : Entries} {key : String}
    (h : Settled (.table origin entries)) : ∀ setting ∈ entries.get? key, Settled setting :=
  fun _ hsetting => h.settings _ (mem_of_get? hsetting)

/-- What a table holds after a key is given a setting. -/
theorem mem_put {key : String} {setting : Setting} {entries : Entries} {entry : String × Setting}
    (h : entry ∈ entries.put key setting) : entry = (key, setting) ∨ entry ∈ entries := by
  induction entries with
  | nil => exact .inl (List.mem_singleton.1 h)
  | cons first rest ih =>
    obtain ⟨k, s⟩ := first
    rw [Entries.put, Entries.alter] at h
    split at h
    next hkey =>
      rcases List.mem_cons.1 h with hfirst | hrest
      · rw [hfirst, hkey]
        exact .inl rfl
      · exact .inr (List.mem_cons_of_mem _ hrest)
    next hkey =>
      rcases List.mem_cons.1 h with hfirst | hrest
      · exact .inr (List.mem_cons.2 (.inl hfirst))
      · exact (ih hrest).imp id (List.mem_cons_of_mem _)

/-- A key in small letters may be given any setting that is settled. -/
theorem Settled.put {entries : Entries} {setting : Setting} (h : Settled (.table none entries))
    (key : String) (hsetting : Settled setting) :
    Settled (.table none (entries.put (Text.lower key) setting)) := by
  refine .table (Entries.nodup_alter h.nodup _ _) (fun entry hentry => ?_) fun entry hentry => ?_
  · rcases mem_put hentry with rfl | hold
    · exact Text.lower_lower key
    · exact h.lower entry hold
  · rcases mem_put hentry with rfl | hold
    · exact hsetting
    · exact h.settings entry hold

/-- What is held as a table, or as something that a table would replace. -/
theorem settled_entries {held : Option Setting} (h : ∀ setting ∈ held, Settled setting) :
    Settled (.table none ((held.map entries).getD [])) := by
  cases held with
  | none => exact settled_nil
  | some setting =>
    cases h setting rfl with
    | scalar place value => exact settled_nil
    | list place items => exact settled_nil
    | table hkeys hlower hentries => exact .table hkeys hlower hentries

mutual
/-- Laying any setting over what is held leaves it settled. -/
theorem settled_overlay {held : Option Setting} (h : ∀ setting ∈ held, Settled setting) :
    (above : Setting) → Settled (overlay held above)
  | .scalar origin value => by
    rw [overlay]
    exact .scalar origin value
  | .list origin items => by
    rw [overlay]
    exact .list origin items
  | .table origin [] => by
    cases held with
    | none => exact settled_nil
    | some setting => exact h setting rfl
  | .table origin (entry :: rest) => by
    rw [overlay, Settled.tableOrigin h]
    exact settled_overlayEntries (settled_entries h) (entry :: rest)

/-- Likewise for entries laid over others. -/
theorem settled_overlayEntries {below : Entries} (h : Settled (.table none below)) :
    (above : Entries) → Settled (.table none (overlayEntries below above))
  | [] => by
    rw [overlayEntries]
    exact h
  | (key, setting) :: rest => by
    rw [overlayEntries, Entries.alter_eq_put]
    exact settled_overlayEntries (h.put key (settled_overlay h.get? setting)) rest
end

/-- Writing into what is settled leaves it so: each step puts a settled setting in its place. -/
theorem settled_write? {setting : Setting} {steps : List PathStep} {held : Option Setting}
    {written : Setting} (h : ∀ setting ∈ held, Settled setting)
    (hwritten : write? setting steps held = some written) : Settled written := by
  induction steps generalizing held written with
  | nil =>
    rw [← Option.some.inj hwritten]
    exact settled_overlay h setting
  | cons step steps ih =>
    cases step with
    | key name =>
      rw [write?, Option.map_eq_some_iff] at hwritten
      obtain ⟨inner, hinner, rfl⟩ := hwritten
      have hentries := settled_entries h
      rw [Settled.tableOrigin h]
      exact hentries.put name (ih hentries.get? hinner)
    | index position =>
      simp only [write?, Option.bind_eq_some_iff, Option.map_eq_some_iff] at hwritten
      obtain ⟨place, -, inner, -, rfl⟩ := hwritten
      exact .list _ _

/-- So does writing to the path of a key. -/
theorem settled_assign {below next : Entries} (h : Settled (.table none below)) {key : String}
    {setting : Setting} (hnext : assign below key setting = .ok next) :
    Settled (.table none next) := by
  simp only [assign] at hnext
  split at hnext
  next written hwritten =>
    rw [← Except.ok.inj hnext]
    exact h.put _ (settled_write? h.get? hwritten)
  next => cases hnext

/-- **Writing leaves all settled**, whatever is written. -/
theorem settled_assignAll {source : List (String × Setting)} {below next : Entries}
    (h : Settled (.table none below)) (hnext : assignAll below source = .ok next) :
    Settled (.table none next) :=
  foldlM_keeps (fun _ _ _ _ hbelow hassign => settled_assign hbelow hassign) h hnext

end Setting

end ServingCatalog
