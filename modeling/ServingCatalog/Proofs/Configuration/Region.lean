import ServingCatalog.Proofs.Configuration.Loading
import ServingCatalog.Proofs.Decimal.Literal

/-!
# What becomes of a region in the environment

The value of a variable is read as a boolean or a number if it can be, and a setting that is wanted
as a text writes these out again.  So a region that is set in the environment arrives as it stands
unless it is such a word or number: then it arrives in canonical form.

The main result, `loadFrom_region`, tells the three grammars by themselves.  Of values that are
numbers in floating-point form only it says that they arrive, but not as what.
-/

namespace ServingCatalog

open Setting Literal
open Text (SameButCase)

namespace Environment

/-! ## Values by their grammar -/

/-- The word for a boolean, in any letter case. -/
def BoolText (b : Bool) (value : String) : Prop := SameButCase value (toString b)

/-- A text of an integer of 64 bits. -/
def Int64Text (i : Int) (value : String) : Prop :=
  IntegerText i value.toList ∧ fitsInt64 i = true

/-- A text of a floating-point number, and of nothing else. -/
structure FloatOnly (value : String) : Prop where
  float : FloatText value.toList
  notBool : ∀ b, ¬BoolText b value
  notInt : ∀ i, ¬Int64Text i value

/-- A word in small letters. -/
theorem boolText_iff {value : String} {b : Bool} :
    BoolText b value ↔ value.map Char.toLower = toString b := by
  have hsmall : (toString b).toList.map Char.toLower = (toString b).toList := by
    cases b <;> decide
  rw [BoolText, SameButCase, hsmall, ← String.toList_map, String.toList_inj]

/-- A value is read as a boolean if it is the text of one. -/
theorem bool?_eq_some_iff {value : String} {b : Bool} : bool? value = some b ↔ BoolText b value := by
  rw [boolText_iff, bool?]
  cases b with
  | true =>
    constructor
    · intro h
      split at h
      next htrue => exact htrue
      next => split at h <;> cases h
    · intro h
      exact if_pos h
  | false =>
    constructor
    · intro h
      split at h
      next => cases h
      next =>
        split at h
        next hfalse => exact hfalse
        next => cases h
    · intro h
      have htrue : value.map Char.toLower ≠ "true" := by
        rw [h]
        decide
      simp only [if_neg htrue]
      exact if_pos h

/-- Likewise for an integer of 64 bits. -/
theorem integer?_eq_some_iff {value : String} {i : Int} :
    integer? value.toList = some i ↔ Int64Text i value := Literal.integer?_eq_some_iff

/-- A word has no digits. -/
theorem not_int64Text_of_boolText {value : String} {b : Bool} (h : BoolText b value) (i : Int) :
    ¬Int64Text i value := by
  rintro ⟨⟨negative, sign, digits, -, hdigits, htext, -⟩, -⟩
  obtain ⟨c, rest, rfl⟩ := List.exists_cons_of_ne_nil hdigits.ne_nil
  have hdigit := (Json.Numeral.isDigit_iff c).1 (hdigits.isDigit c List.mem_cons_self)
  have hlower : c.toLower = c := by
    rw [← Char.toNat_inj, Text.toNat_toLower]
    exact if_neg (by omega)
  have hmem : c ∈ (toString b).toList.map Char.toLower := by
    rw [← h, htext, ← hlower]
    exact List.mem_map_of_mem (List.mem_append_right _ (by rw [hlower]; exact List.mem_cons_self))
  have hletters : ∀ b : Bool,
      ((toString b).toList.map Char.toLower).all (fun d => 57 < d.toNat) = true := by decide
  have hletter := of_decide_eq_true (List.all_eq_true.1 (hletters b) c hmem)
  omega

/-- The text that a value is written out as. -/
def written (value : String) : String := ((scalar value).text?).getD value

/-- Every value is written out. -/
theorem text?_scalar (value : String) : (scalar value).text? = some (written value) := by
  rw [written, scalar]
  split <;> rfl

/-- A boolean is written in small letters. -/
theorem written_of_boolText {value : String} {b : Bool} (h : BoolText b value) :
    written value = toString b := by
  rw [written, scalar, bool?_eq_some_iff.2 h]
  rfl

theorem bool?_eq_none {value : String} (h : ∀ b, ¬BoolText b value) : bool? value = none := by
  rw [Option.eq_none_iff_forall_ne_some]
  exact fun b hb => h b (bool?_eq_some_iff.1 hb)

/-- An integer is written as its canonical text. -/
theorem written_of_int64Text {value : String} {i : Int} (h : Int64Text i value) :
    written value = toString i := by
  have hbool := bool?_eq_none fun b hb => not_int64Text_of_boolText hb i h
  rw [written, scalar, hbool, integer?_eq_some_iff.2 h]
  rfl

/-- A word is kept character for character. -/
theorem written_of_none {value : String} (hbool : ∀ b, ¬BoolText b value)
    (hint : ∀ i, ¬Int64Text i value) (hfloat : ¬FloatText value.toList) : written value = value := by
  have hnotInt : integer? value.toList = none := by
    rw [Option.eq_none_iff_forall_ne_some]
    exact fun i hi => hint i (integer?_eq_some_iff.1 hi)
  have hnotFloat : float? value.toList = none := by
    rw [← Option.not_isSome_iff_eq_none, isSome_float?_iff]
    exact hfloat
  rw [written, IsWord.scalar ⟨bool?_eq_none hbool, hnotInt, hnotFloat⟩]
  rfl

/-- A value that is not a floating-point number only is a boolean, an integer or a word. -/
theorem kinds {value : String} (h : ¬FloatOnly value) :
    (∃ b, BoolText b value) ∨ (∃ i, Int64Text i value) ∨
      (∀ b, ¬BoolText b value) ∧ (∀ i, ¬Int64Text i value) ∧ ¬FloatText value.toList := by
  by_cases hbool : ∃ b, BoolText b value
  · exact .inl hbool
  · by_cases hint : ∃ i, Int64Text i value
    · exact .inr (.inl hint)
    · rw [not_exists] at hbool hint
      exact .inr (.inr ⟨hbool, hint, fun hfloat => h ⟨hfloat, hbool, hint⟩⟩)

/-- What a value is written out as is of the same kind, and is written out as itself. -/
theorem written_written {value : String} (h : ¬FloatOnly value) :
    written (written value) = written value := by
  rcases kinds h with ⟨b, hb⟩ | ⟨i, hi⟩ | ⟨hbool, hint, hfloat⟩
  · rw [written_of_boolText hb]
    exact written_of_boolText rfl
  · have hcanonical : Canonical i (toString i).toList := canonical_iff.2 rfl
    rw [written_of_int64Text hi]
    exact written_of_int64Text ⟨hcanonical.integerText, hi.2⟩
  · rw [written_of_none hbool hint hfloat, written_of_none hbool hint hfloat]

/-- A value stays as it is if it is written like the boolean or the integer that it reads as. -/
theorem written_eq_self_iff {value : String} (h : ¬FloatOnly value) :
    written value = value ↔
      (∀ b, BoolText b value → value = toString b) ∧
        ∀ i, Int64Text i value → Canonical i value.toList := by
  constructor
  · intro hself
    refine ⟨fun b hb => ?_, fun i hi => ?_⟩
    · rw [← written_of_boolText hb, hself]
    · rw [canonical_iff, ← written_of_int64Text hi, hself]
  · rintro ⟨hbool, hint⟩
    rcases kinds h with ⟨b, hb⟩ | ⟨i, hi⟩ | ⟨hnotBool, hnotInt, hfloat⟩
    · rw [written_of_boolText hb, ← hbool b hb]
    · rw [written_of_int64Text hi, ← String.toList_inj, ← canonical_iff.1 (hint i hi)]
    · exact written_of_none hnotBool hnotInt hfloat

/-! ## The layer of a value -/

/-- The variable for the region lays the region that its value is written out as. -/
theorem laysFreely_region {environment : List (String × String)} {value : String}
    (h : settings environment = [(regionVariable, value)]) :
    LaysFreely (source environment) (.only .catalog ⟨some (written value), none⟩) := by
  have hdecode : decodeText (.scalar (some origin) (scalar value)) = .ok (written value) := by
    rw [decodeText, text?_scalar]
  have hsaid : said environment =
      [("catalog.default_region", .scalar (some origin) (scalar value))] := by
    rw [← said_settings, h]
    rfl
  apply laysFreely_source
  · rw [hsaid]
    intro entry hentry
    rw [List.mem_singleton.1 hentry]
    exact (by decide : '[' ∉ "catalog.default_region".toList)
  · rw [hsaid]
    exact List.pairwise_singleton _ _
  · rw [hsaid]
    exact Layer.Part.lays_scalar hdecode .catalog

end Environment

namespace Configuration

open Environment (BoolText Int64Text FloatOnly regionVariable)

/-- Without files, the region is what its variable is written out as. -/
theorem loadFrom_written {loader : Loader} {files : Files} {defaultName localName : String}
    (hdefault : locate? loader files defaultName = none)
    (hlocal : locate? loader files localName = none)
    {environment : List (String × String)} {value : String}
    (h : Environment.settings environment = [(regionVariable, value)]) :
    loadFrom loader defaultName localName files environment =
      .ok ⟨.default, ⟨Environment.written value, []⟩⟩ := by
  exact loadFrom_of_says (says_of_in (.missing hdefault)) (says_of_in (.missing hlocal))
    (Environment.laysFreely_region h)

/-- **The region.**  Without files and other settings, any value of its variable is loaded: the word
for a boolean in small letters, an integer of 64 bits in its canonical text, and a value that is
neither of these nor a floating-point number as it stands.  Unless a value is a floating-point
number only, it stays as it is if and only if it is no other text of a boolean or an integer, and
what it became stays as it is if it is set again. -/
theorem loadFrom_region {loader : Loader} {files : Files} {defaultName localName : String}
    (hdefault : locate? loader files defaultName = none)
    (hlocal : locate? loader files localName = none)
    {environment : List (String × String)} {value : String}
    (henvironment : Environment.settings environment = [(regionVariable, value)]) :
    ∃ region,
      loadFrom loader defaultName localName files environment = .ok ⟨.default, ⟨region, []⟩⟩ ∧
      (∀ b, BoolText b value → region = toString b) ∧
      (∀ i, Int64Text i value → Canonical i region.toList) ∧
      ((∀ b, ¬BoolText b value) → (∀ i, ¬Int64Text i value) → ¬FloatText value.toList →
        region = value) ∧
      (¬FloatOnly value →
        (region = value ↔ (∀ b, BoolText b value → value = toString b) ∧
          ∀ i, Int64Text i value → Canonical i value.toList) ∧
        ∀ later, Environment.settings later = [(regionVariable, region)] →
          loadFrom loader defaultName localName files later = .ok ⟨.default, ⟨region, []⟩⟩) := by
  refine ⟨Environment.written value, loadFrom_written hdefault hlocal henvironment,
    fun b => Environment.written_of_boolText, fun i hi => ?_, Environment.written_of_none,
    fun hfloat => ⟨Environment.written_eq_self_iff hfloat, fun later hlater => ?_⟩⟩
  · rw [canonical_iff, Environment.written_of_int64Text hi]
  · have hagain := loadFrom_written hdefault hlocal hlater
    rwa [Environment.written_written hfloat] at hagain

/-- A number with a plus sign and zeros in front loses them. -/
theorem loadFrom_plusSeven :
    loadFrom .plain "config/default" "config/local" []
        [("HOME", "/home"), ("APP__CATALOG__DEFAULT_REGION", "+007")] =
      .ok ⟨.default, ⟨"7", []⟩⟩ := by
  have hdefault : locate? .plain [] "config/default" = none := rfl
  have hlocal : locate? .plain [] "config/local" = none := rfl
  have henvironment : Environment.settings
      [("HOME", "/home"), ("APP__CATALOG__DEFAULT_REGION", "+007")] =
        [(regionVariable, "+007")] := rfl
  have hseven : Int64Text 7 "+007" :=
    ⟨⟨false, ['+'], ['0', '0', '7'], .plus, by decide, rfl, rfl⟩, rfl⟩
  obtain ⟨region, hload, -, hint, -, -⟩ := loadFrom_region hdefault hlocal henvironment
  have hregion : region = toString (7 : Int) := String.toList_inj.1 (canonical_iff.1 (hint 7 hseven))
  rw [hload, hregion]
  rfl

end Configuration

end ServingCatalog
