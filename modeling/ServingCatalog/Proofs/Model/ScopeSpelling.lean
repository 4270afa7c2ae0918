import ServingCatalog.Model.SpecJson
import ServingCatalog.Proofs.Json.StringText

/-!
# The spellings of a scope

The names of scopes stand in several tables: what a scope is called and shown as, what it is parsed
from, and, renamed from the variants, what it is written as in JSON and read from.  In JSON the name
may be spelled in any way, and may be the only key of an object.  `Scope.spellings_agree` says that
all of these take the same names for the same scope, and refuse the others with messages that show
the name.

A text that is parsed as a string is a literal with blanks around it, and what is read from a
literal does not depend on what follows it (`Quoted.read_append`), so it is also read as a key.
-/

namespace ServingCatalog

namespace Json

/-! ## Blanks -/

/-- Behind blanks one looks on in what follows. -/
theorem skipBlanks_append_of_nil {text : List Char} (h : skipBlanks text = []) (more : List Char) :
    skipBlanks (text ++ more) = skipBlanks more := by
  have hempty : (text.dropWhile isBlank).isEmpty = true := List.isEmpty_iff.2 h
  rw [skipBlanks, List.dropWhile_append, if_pos hempty, skipBlanks]

theorem skipBlanks_append_of_cons {text start : List Char} {c : Char}
    (h : skipBlanks text = c :: start) (more : List Char) :
    skipBlanks (text ++ more) = c :: (start ++ more) := by
  have hcons : text.dropWhile isBlank = c :: start := h
  rw [skipBlanks, List.dropWhile_append, hcons]
  rfl

end Json

namespace Scope

open Json

/-! ## Names -/

/-- A text is parsed as the scope of that name. -/
theorem parse_eq_ok_iff {name : String} {scope : Scope} :
    parse name = .ok scope ↔ scope.name = name := by
  constructor
  · intro h
    rw [parse.eq_def] at h
    split at h <;> cases h <;> rfl
  · rintro rfl
    cases scope <;> rfl

/-- A text that names no scope is refused. -/
theorem parse_eq_error {name : String} (h : ∀ scope : Scope, scope.name ≠ name) :
    parse name = .error (unknownMessage name) := by
  rw [parse.eq_def]
  split
  · exact absurd rfl (h .training)
  · exact absurd rfl (h .inference)
  · rfl

/-- The renamed variants are written as the names of the scopes. -/
theorem written_eq_name (scope : Scope) : scope.written = scope.name := by
  cases scope <;> decide

/-- They are read from the same names. -/
theorem variants_eq : variants = [(name .training, .training), (name .inference, .inference)] := by
  decide

theorem name_of_mem_variants {name : String} {scope : Scope} (h : (name, scope) ∈ variants) :
    scope.name = name := by
  rw [variants_eq] at h
  simp only [List.mem_cons, Prod.mk.injEq, List.not_mem_nil, or_false] at h
  obtain ⟨rfl, rfl⟩ | ⟨rfl, rfl⟩ := h <;> rfl

/-- A scope is selected by its name. -/
theorem select_eq_ok_iff {name : String} {scope : Scope} :
    select name = .ok scope ↔ scope.name = name := by
  constructor
  · intro h
    rw [select] at h
    split at h
    case h_1 key found hfound =>
      cases h
      have hsame := List.find?_some hfound
      have hkey : key = name := of_decide_eq_true hsame
      exact hkey ▸ name_of_mem_variants (List.mem_of_find?_eq_some hfound)
    case h_2 => cases h
  · rintro rfl
    cases scope <;> rfl

/-- A name that no scope has is refused, and shown among those that are read. -/
theorem select_eq_error {name : String} (h : ∀ scope : Scope, scope.name ≠ name) :
    select name = .error (.misfit (.unknownVariant name (variants.map Prod.fst))) := by
  have hnone : (variants.find? fun variant => variant.1 = name) = none :=
    List.find?_eq_none.2 fun variant hvariant hname =>
      h variant.2 ((name_of_mem_variants hvariant).trans (of_decide_eq_true hname))
  rw [select, hnone]

/-! ## Texts -/

/-- What is selected, with what is left of the text. -/
theorem read_literal {text start rest : List Char} {name : String}
    (hstart : skipBlanks text = '"' :: start) (hread : Quoted.read start = .ok (name, rest)) :
    read text = (select name).map fun scope => (scope, rest) := by
  have hsteps : read text = select name >>= fun scope => pure (scope, rest) := by
    simp only [read, hstart, if_true]
    rw [hread]
    rfl
  rw [hsteps]
  cases select name <;> rfl

/-- The same for an object with the name as its only key. -/
theorem read_object {text inner start rest : List Char} {name : String}
    (hinner : skipBlanks text = '\x7b' :: inner) (hstart : skipBlanks inner = '"' :: start)
    (hread : Quoted.read start = .ok (name, rest ++ ":null\x7d".toList))
    (hrest : skipBlanks rest = []) : read text = (select name).map fun scope => (scope, []) := by
  have hcolon : readColon (rest ++ ":null\x7d".toList) = .ok "null\x7d".toList := by
    rw [readColon, skipBlanks_append_of_nil hrest]
    rfl
  have hnull : readNull "null\x7d".toList = .ok ['\x7d'] := rfl
  have hclosing : readClosing ['\x7d'] = .ok [] := rfl
  have hbrace : '\x7b' ≠ '"' := by decide
  have hquote : ¬('"' ≠ '"') := fun h => h rfl
  rw [read]
  simp only [hinner, if_neg hbrace, if_true, hstart, if_neg hquote, hread, bind, Except.bind]
  cases select name with
  | error failure => rfl
  | ok scope =>
    simp only [hcolon, hnull, hclosing]
    rfl

/-- A text of a name is selected by the name. -/
theorem ofText_of_parse {text name : String} (h : Json.parse text = .ok (.string name)) :
    ofText text = select name := by
  obtain ⟨start, rest, hstart, hread, hrest⟩ := exists_literal_of_parse h
  rw [ofText, readWhole, read_literal hstart hread]
  cases select name with
  | error failure => rfl
  | ok scope =>
    show (if skipBlanks rest = [] then Except.ok scope else Except.error Failure.malformed) = _
    rw [if_pos hrest]

/-- So is an object with it as its only key. -/
theorem ofText_object_of_parse {text name : String} (h : Json.parse text = .ok (.string name)) :
    ofText ("\x7b" ++ text ++ ":null\x7d") = select name := by
  obtain ⟨start, rest, hstart, hread, hrest⟩ := exists_literal_of_parse h
  have htext : ("\x7b" ++ text ++ ":null\x7d").toList =
      '\x7b' :: (text.toList ++ ":null\x7d".toList) := by
    rw [String.toList_append, String.toList_append]
    rfl
  have hobject : read ("\x7b" ++ text ++ ":null\x7d").toList =
      (select name).map fun scope => (scope, []) := by
    rw [htext]
    exact read_object rfl (skipBlanks_append_of_cons hstart _) (Quoted.read_append hread _) hrest
  rw [ofText, readWhole, hobject]
  cases select name <;> rfl

/-- A scope is written as a text of its name. -/
theorem toJson_eq (scope : Scope) : scope.toJson = .string scope.name := by
  rw [toJson, written_eq_name]

/-- Its text is parsed as its name. -/
theorem parse_compact_toJson (scope : Scope) :
    Json.parse scope.toJson.compact = .ok (.string scope.name) := by
  rw [toJson_eq]
  exact Json.parse_of_isText (Json.isText_compact (Json.spells_string _ scope.name))

/-- The message for a name that no scope has. -/
theorem message_unknownVariant (name : String) :
    (Misfit.unknownVariant name (variants.map Prod.fst)).message Json.wording =
      "unknown variant `" ++ name ++ "`, expected `training` or `inference`" := by
  have hticked : (variants.map Prod.fst).map ticked = ["`training`", "`inference`"] := by
    rw [variants_eq]
    rfl
  have hknown : " or ".intercalate ["`training`", "`inference`"] =
      "`training` or `inference`" := by rfl
  have hmessage : (Misfit.unknownVariant name (variants.map Prod.fst)).message Json.wording =
      "unknown variant " ++ ticked name ++ ", expected " ++
        " or ".intercalate ((variants.map Prod.fst).map ticked) := by rfl
  rw [hmessage, hticked, hknown, ← String.toList_inj]
  simp only [ticked, String.toList_append, List.append_assoc]
  rfl

/-- **The spellings of a scope.**  For each text of a JSON string, that string is parsed as the very
scope that is read from the text and from an object with it as its only key, which is the scope of
that name; it is what that scope is shown as, and the scope is written as the string again, and read
back.  Where no scope has the name, parsing refuses it and shows it, and both texts are refused with
one message, which shows it too. -/
theorem spellings_agree {text name : String} (h : Json.parse text = .ok (.string name)) :
    (∀ scope, parse name = .ok scope ↔ scope.name = name) ∧
    (∀ scope, ofText text = .ok scope ↔ scope.name = name) ∧
    (∀ scope, ofText ("\x7b" ++ text ++ ":null\x7d") = .ok scope ↔ scope.name = name) ∧
    (∀ scope : Scope, scope.name = name →
      toString scope = name ∧
        scope.toJson.compact = Json.compact (.string name) ∧
          ofText scope.toJson.compact = .ok scope) ∧
    ((∀ scope : Scope, scope.name ≠ name) →
      parse name =
        .error ("Unknown scope '" ++ name ++ "', expected 'training' or 'inference'") ∧
      ∃ reason, ofText text = .error (.misfit reason) ∧
        ofText ("\x7b" ++ text ++ ":null\x7d") = .error (.misfit reason) ∧
        reason.message Json.wording =
          "unknown variant `" ++ name ++ "`, expected `training` or `inference`") := by
  rw [ofText_of_parse h, ofText_object_of_parse h]
  refine ⟨fun scope => parse_eq_ok_iff, fun scope => select_eq_ok_iff,
    fun scope => select_eq_ok_iff, fun scope hname => ?_, fun hnone => ?_⟩
  · have hshown : toString scope = scope.name := rfl
    have hcompact : scope.toJson.compact = Json.compact (.string name) := by rw [toJson_eq, hname]
    refine ⟨hshown.trans hname, hcompact, ?_⟩
    rw [ofText_of_parse (parse_compact_toJson scope)]
    exact select_eq_ok_iff.2 rfl
  · have hselect := select_eq_error hnone
    exact ⟨parse_eq_error hnone, _, hselect, hselect, message_unknownVariant name⟩

/-- A name with its third letter escaped, behind a blank. -/
def escapedText : String := " \"tr\\u0061ining\""

theorem parse_escapedText : Json.parse escapedText = .ok (.string "training") := by
  have hzero : Text.hexValue? '0' = some 0 := by decide
  have hsix : Text.hexValue? '6' = some 6 := by decide
  have hone : Text.hexValue? '1' = some 1 := by decide
  have hunit : Quoted.UnitDigits 0x61 ['0', '0', '6', '1'] := .digits hzero hzero hsix hone
  have htail : Quoted.Spells "ining".toList "ining".toList := Quoted.spells_encode "ining".toList
  have hletter : Quoted.Spells ('a' :: "ining".toList) ('\\' :: 'u' :: '0' :: '0' :: '6' :: '1' ::
      "ining".toList) := .unit hunit (by decide) (by decide) htail
  have hbody : Quoted.Spells "training".toList "tr\\u0061ining".toList :=
    .char (by decide) (by decide) (by decide) (.char (by decide) (by decide) (by decide) hletter)
  have hblank : Json.AllBlank [' '] := fun c hc => by rw [List.mem_singleton.1 hc]; rfl
  have htext : Json.IsText (.string "training") escapedText.toList :=
    ⟨[' '], _, [], hblank, Json.allBlank_nil, Json.spells_string_iff.2 ⟨_, hbody, rfl⟩, rfl⟩
  exact Json.parse_eq_string_iff.2 htext

/-- Escaped as it is, the name is that of a scope, also as a key. -/
theorem ofText_escapedText :
    ofText escapedText = .ok .training ∧
      ofText ("\x7b" ++ escapedText ++ ":null\x7d") = .ok .training := by
  obtain ⟨-, htext, hobject, -, -⟩ := spellings_agree parse_escapedText
  exact ⟨(htext .training).2 rfl, (hobject .training).2 rfl⟩

end Scope

end ServingCatalog
