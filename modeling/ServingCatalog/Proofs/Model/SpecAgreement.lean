import ServingCatalog.Configuration.CatalogJson
import ServingCatalog.Proofs.Json.Agreement

/-!
# Specs from a text and from a value

A spec is decoded from the compact text of a value as it is from the value itself, for values of any
shape: `ofText_compact_sorted`.  So is each spec of a catalog's settings, in the order of the list.
-/

namespace ServingCatalog

open Json

namespace ScopeSpec

theorem record_plain : Plain record where
  members _ _ := rfl
  items _ _ _ := rfl

/-- Scopes are read from a text as they are decoded. -/
theorem agrees_read : Agrees read ofJson := by
  refine agrees_record record_plain fun f => ?_
  cases f with
  | instanceTypes => exact agrees_list agrees_text
  | default => exact agrees_option agrees_text

end ScopeSpec

namespace ModelSpec

theorem record_plain : Plain record where
  members draft rest := by
    simp only [Record.ofMembers, record, ofDraft]
    cases draft .modelId with
    | none => rfl
    | some _ => cases draft .version <;> rfl
  items count draft rest := by
    have hlabel : record.labelWithSize ≠ shorter := by decide
    show finish (ofDraft (fun _ => .wrongLength count record.labelWithSize) draft) rest =
      answer (ofDraft (fun _ => .wrongLength count record.labelWithSize) draft) rest
    rw [ofDraft]
    cases draft .modelId with
    | none => simp only [finish, answer, Failure.ofMisfit, hlabel, if_false]
    | some _ =>
      cases draft .version with
      | none => simp only [finish, answer, Failure.ofMisfit, hlabel, if_false]
      | some _ => rfl

/-- Specs are read from a text as they are decoded. -/
theorem agrees_read : Agrees read ofJson := by
  refine agrees_record record_plain fun f => ?_
  cases f with
  | modelId => exact agrees_text
  | version => exact agrees_text
  | regions => exact agrees_list agrees_text
  | acceptTypes => exact agrees_list agrees_text
  | defaultAcceptType => exact agrees_option agrees_text
  | training => exact agrees_option ScopeSpec.agrees_read
  | inference => exact agrees_option ScopeSpec.agrees_read

end ModelSpec

/-- The settings of a catalog as a value, a region that is not given left out. -/
def CatalogConfig.valueOf (region : Option String) (models : List Json) : Json :=
  .object (optionalMember Field.defaultRegion.name .string region ++
    [(Field.models.name, .array models)])

/-- Items are decoded in order, and the first misfit is the answer. -/
theorem Json.mapError_decodeItems {α β ε : Type} {decode : Json → Except Misfit α}
    {f : Misfit → ε} {value : β → Json} {read : β → Except ε α} {bs : List β}
    (h : ∀ b ∈ bs, (decode (value b)).mapError f = read b) :
    (decodeItems decode (bs.map value)).mapError f = bs.mapM read := by
  induction bs with
  | nil => rfl
  | cons b bs ih =>
    have hfirst := h b List.mem_cons_self
    rw [List.map_cons, decodeItems, List.mapM_cons, ← hfirst,
      ← ih fun c hc => h c (List.mem_cons_of_mem b hc)]
    cases decode (value b) with
    | error reason => rfl
    | ok decoded => cases decodeItems decode (bs.map value) <;> rfl

/-- The settings of a catalog hold the specs that the items of the list are decoded to. -/
theorem CatalogConfig.ofJson_valueOf (region : Option String) (models : List Json) :
    ofJson (valueOf region models) =
      (decodeItems ModelSpec.ofJson models).map (CatalogConfig.mk (region.getD standardRegion)) := by
  have hregion : record.field? Field.defaultRegion.name = some .defaultRegion := rfl
  have hmodels : record.field? Field.models.name = some .models := rfl
  rw [ofJson, valueOf, decodeRecord]
  cases region with
  | none =>
    simp only [optionalMember, List.nil_append, draftOfMembers, hmodels, decodeField, decodeList]
    cases decodeItems ModelSpec.ofJson models <;> rfl
  | some region =>
    simp only [optionalMember, List.cons_append, List.nil_append, draftOfMembers, hregion, hmodels,
      decodeField, decodeText, decodeList]
    cases decodeItems ModelSpec.ofJson models <;> rfl

namespace ModelSpec

/-- **Text and value.**  A spec is decoded from the compact text of a value, keys in order, as from
the value: with the same spec, or with the failure that the misfit is in a text.  The specs of a
catalog's settings are decoded one by one in the same way.  What the failure shows for a
floating-point number is the number that its text is read as, and there is one for each number. -/
theorem ofText_compact_sorted {vs : List Json} (h : ∀ v ∈ vs, v.Storable)
    (region : Option String) :
    (∀ v ∈ vs, ofText v.sorted.compact = (ofJson v.sorted).mapError .ofMisfit) ∧
      (CatalogConfig.ofJson (CatalogConfig.valueOf region (vs.map sorted))).mapError .ofMisfit =
        (vs.mapM fun v => ofText v.sorted.compact).map
          (CatalogConfig.mk (region.getD CatalogConfig.standardRegion)) ∧
      ∀ x : Binary64, x.IsDouble → Json.parse x.ranged = .ok (.number (.float x.reread)) := by
  have hread : ∀ v ∈ vs, ofText v.sorted.compact = (ofJson v.sorted).mapError .ofMisfit :=
    fun v hv => readWhole_of_agrees agrees_read (h v hv)
  refine ⟨hread, ?_, fun x hx => Binary64.parse_ranged hx⟩
  have hitems := mapError_decodeItems fun v hv => (hread v hv).symm
  rw [CatalogConfig.ofJson_valueOf, ← hitems]
  cases decodeItems ofJson (vs.map sorted) <;> rfl

/-- An array with one value too many. -/
def tooLong : Json :=
  .array [.string "m", .string "1", .array [], .array [], .null, .null, .null, .null]

theorem storable_tooLong : tooLong.Storable := by
  refine .array fun item hitem => ?_
  simp only [List.mem_cons, List.not_mem_nil, or_false] at hitem
  rcases hitem with rfl | rfl | rfl | rfl | rfl | rfl | rfl | rfl
  · exact .string "m"
  · exact .string "1"
  · exact .array nofun
  · exact .array nofun
  all_goals exact .null

/-- The array is too long as a value, and as a text it goes on where it should end. -/
theorem ofText_tooLong :
    ofJson tooLong.sorted = .error (.wrongLength 8 shorter) ∧
      ofText tooLong.sorted.compact = .error .malformed := by
  have hvalue : ofJson tooLong.sorted = .error (.wrongLength 8 shorter) := rfl
  refine ⟨hvalue, ?_⟩
  have hstorable : ∀ v ∈ [tooLong], v.Storable := by
    intro v hv
    rw [List.mem_singleton.1 hv]
    exact storable_tooLong
  have htext := (ofText_compact_sorted hstorable none).1 tooLong List.mem_cons_self
  rw [htext, hvalue]
  rfl

/-- A number whose shortest digits make an integer that is halfway between two numbers. -/
def halfway : Binary64 := .finite false 7205759403792796 (-3)

/-- The number is refused as a value, and as a text another number is refused. -/
theorem ofText_halfway :
    (Json.number (.float halfway)).Storable ∧
      (Json.number (.float halfway)).sorted.compact = "900719925474099.5" ∧
      ∃ reason other, ofJson (Json.number (.float halfway)).sorted = .error reason ∧
        ofText (Json.number (.float halfway)).sorted.compact = .error (.misfit other) ∧
        reason.message Json.wording =
          "invalid type: floating point `900719925474099.5`, expected struct ModelSpec" ∧
        other.message Json.wording =
          "invalid type: floating point `900719925474099.6`, expected struct ModelSpec" := by
  have hstorable : (Json.number (.float halfway)).Storable :=
    .number (by decide : 7205759403792796 < 2 ^ 53 ∧ -1074 ≤ (-3 : Int) ∧ (-3 : Int) ≤ 971)
  have hreread : halfway.reread = .finite false 7205759403792797 (-3) := by decide +kernel
  refine ⟨hstorable, by decide +kernel, .wrongType (.float halfway) "struct ModelSpec",
    .wrongType (.float (.finite false 7205759403792797 (-3))) "struct ModelSpec", rfl, ?_,
    by decide +kernel, by decide +kernel⟩
  rw [show ofText (Json.number (.float halfway)).sorted.compact = _ from
    readWhole_of_agrees agrees_read hstorable]
  show Except.error (Failure.ofMisfit (.wrongType (.float halfway) "struct ModelSpec")) = _
  rw [Failure.ofMisfit, hreread]

end ModelSpec

end ServingCatalog
