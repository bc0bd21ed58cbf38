import CloutQuery.Proofs.Host.VersionOrder
import CloutQuery.Proofs.Version.Grammar

namespace CloutQuery

open Comparer Text

namespace Version

/-- The numbers fit into 64 bits, and the qualifier has letters, digits and underscores only. -/
structure Writable (v : Version) : Prop where
  major_lt : v.major < 2 ^ 64
  minor_lt : v.minor < 2 ^ 64
  fix_lt : v.fix < 2 ^ 64
  build_lt : v.build < 2 ^ 64
  isQualifierChar_of_mem : ∀ c ∈ v.qualifier.toList, isQualifierChar c = true

def numeral (n : ℕ) : String := String.ofList (natText n)

def textToMinor (v : Version) : String := numeral v.major ++ "." ++ numeral v.minor

def textToFix (v : Version) : String := v.textToMinor ++ "." ++ numeral v.fix

def textToQualifier (v : Version) : String := v.textToFix ++ "." ++ v.qualifier

def fullText (v : Version) : String := v.textToQualifier ++ "-" ++ numeral v.build

/-- The full text of the version, or a text without the last parts, which are then zero or empty. -/
inductive WrittenAs (v : Version) : String → Prop
  | full : WrittenAs v v.fullText
  | toQualifier (hbuild : v.build = 0) : WrittenAs v v.textToQualifier
  | toFix (hqualifier : v.qualifier = "") (hbuild : v.build = 0) : WrittenAs v v.textToFix
  | toMinor (hfix : v.fix = 0) (hqualifier : v.qualifier = "") (hbuild : v.build = 0) :
    WrittenAs v v.textToMinor

def HoldsNumber (members : Payload) (name : String) (n : ℕ) : Prop :=
  ∃ bounds, members.get? name = some (.number (.integer n bounds))

def HoldsOrOmits (members : Payload) (name : String) (n : ℕ) : Prop :=
  HoldsNumber members name n ∨ n = 0 ∧ members.get? name = none

/-- The members have no text `$string`, and hold the parts of the version; a fix number or build number
of zero and an empty qualifier may be missing. -/
structure InFields (v : Version) (members : Payload) : Prop where
  no_string : ∀ s, members.get? "$string" ≠ some (.text s)
  major : HoldsNumber members "major" v.major
  minor : HoldsNumber members "minor" v.minor
  fix : HoldsOrOmits members "fix" v.fix
  qualifier : members.get? "qualifier" = some (.text v.qualifier) ∨
    v.qualifier = "" ∧ members.get? "qualifier" = none
  build : HoldsOrOmits members "build" v.build

/-- The forms of a version. What else an object holds does not matter. -/
inductive HasForm (v : Version) : Value → Prop
  | text {s : String} (h : v.WrittenAs s) : HasForm v (.text s)
  | string {members : Payload} {s : String} (h : v.WrittenAs s)
      (hstring : members.get? "$string" = some (.text s)) : HasForm v (.object members)
  | fields {members : Payload} (h : v.InFields members) : HasForm v (.object members)

variable {v : Version} {s : String} {members : Payload} {x y : Value}

@[simp] theorem toList_numeral (n : ℕ) : (numeral n).toList = natText n := String.toList_ofList

namespace Writable

def buildText (h : v.Writable) : NaturalText := .ofNat v.build h.build_lt

def qualifiedText (h : v.Writable) (build : Option NaturalText) : QualifiedText :=
  ⟨v.qualifier.toList, build, h.isQualifierChar_of_mem⟩

def fixedText (h : v.Writable) (qualified : Option QualifiedText) : FixedText :=
  ⟨.ofNat v.fix h.fix_lt, qualified⟩

def versionText (h : v.Writable) (fixed : Option FixedText) : VersionText :=
  ⟨.ofNat v.major h.major_lt, .ofNat v.minor h.minor_lt, fixed⟩

theorem toList_textToMinor (h : v.Writable) :
    v.textToMinor.toList = (h.versionText none).chars := by
  simp [textToMinor, versionText, VersionText.chars, VersionText.minorChars]

theorem toList_textToFix (h : v.Writable) :
    v.textToFix.toList = (h.versionText (some (h.fixedText none))).chars := by
  simp [textToFix, h.toList_textToMinor, versionText, VersionText.chars, VersionText.minorChars, fixedText,
    FixedText.chars]

theorem toList_textToQualifier (h : v.Writable) :
    v.textToQualifier.toList =
      (h.versionText (some (h.fixedText (some (h.qualifiedText none))))).chars := by
  simp [textToQualifier, h.toList_textToFix, versionText, VersionText.chars, VersionText.minorChars,
    fixedText, FixedText.chars, qualifiedText, QualifiedText.chars]

theorem toList_fullText (h : v.Writable) :
    v.fullText.toList =
      (h.versionText (some (h.fixedText (some (h.qualifiedText (some h.buildText)))))).chars := by
  simp [fullText, h.toList_textToQualifier, versionText, VersionText.chars, VersionText.minorChars,
    fixedText, FixedText.chars, qualifiedText, QualifiedText.chars, buildText]

end Writable

theorem WrittenAs.parse_eq (h : v.WrittenAs s) (hv : v.Writable) : parse s = some v := by
  obtain ⟨major, minor, fix, qualifier, build⟩ := v
  cases h with
  | full =>
    rw [parse, hv.toList_fullText, ofChars?_chars]
    simp [VersionText.version, VersionText.qualified, Writable.versionText, Writable.fixedText,
      Writable.qualifiedText, QualifiedText.buildValue, Writable.buildText]
  | toQualifier hbuild =>
    obtain rfl : build = 0 := hbuild
    rw [parse, hv.toList_textToQualifier, ofChars?_chars]
    simp [VersionText.version, VersionText.qualified, Writable.versionText, Writable.fixedText,
      Writable.qualifiedText, QualifiedText.buildValue]
  | toFix hqualifier hbuild =>
    obtain rfl : qualifier = "" := hqualifier
    obtain rfl : build = 0 := hbuild
    rw [parse, hv.toList_textToFix, ofChars?_chars]
    simp [VersionText.version, VersionText.qualified, Writable.versionText, Writable.fixedText]
  | toMinor hfix hqualifier hbuild =>
    obtain rfl : fix = 0 := hfix
    obtain rfl : qualifier = "" := hqualifier
    obtain rfl : build = 0 := hbuild
    rw [parse, hv.toList_textToMinor, ofChars?_chars]
    simp [VersionText.version, VersionText.qualified, Writable.versionText]

def field? (members : Payload) (name : String) : Option ℕ :=
  match members.get? name with
  | some (.number n) => n.toNat?
  | _ => none

theorem ofMembers?_eq (members : Payload) : ofMembers? members =
    (field? members "major").bind fun major ↦ (field? members "minor").bind fun minor ↦
      some ⟨major, minor, (field? members "fix").getD 0,
        ((members.get? "qualifier").bind Value.text?).getD "", (field? members "build").getD 0⟩ := rfl

theorem HoldsNumber.field?_eq {name : String} {n : ℕ} (h : HoldsNumber members name n) :
    field? members name = some n := by
  obtain ⟨_, h⟩ := h
  rw [field?, h]
  dsimp only
  rw [Number.toNat?, if_pos (Int.natCast_nonneg n), Int.toNat_natCast]

theorem HoldsOrOmits.getD_field?_eq {name : String} {n : ℕ} (h : HoldsOrOmits members name n) :
    (field? members name).getD 0 = n := by
  obtain h | ⟨rfl, h⟩ := h
  · rw [h.field?_eq, Option.getD_some]
  · rw [field?, h, Option.getD_none]

theorem InFields.ofMembers?_eq (h : v.InFields members) : ofMembers? members = some v := by
  have hqualifier : ((members.get? "qualifier").bind Value.text?).getD "" = v.qualifier := by
    obtain h | ⟨hempty, h⟩ := h.qualifier
    · rw [h]
      rfl
    · rw [h, hempty]
      rfl
  rw [Version.ofMembers?_eq, h.major.field?_eq, h.minor.field?_eq, Option.bind_some, Option.bind_some,
    h.fix.getD_field?_eq, h.build.getD_field?_eq, hqualifier]

theorem ofValue?_object (members : Payload) : ofValue? (.object members) =
    match members.get? "$string" with
    | some (.text s) => parse s
    | _ => ofMembers? members := rfl

theorem InFields.ofValue?_eq (h : v.InFields members) : ofValue? (.object members) = some v := by
  rw [ofValue?_object]
  split
  · rename_i s hs
    exact absurd hs (h.no_string s)
  · exact h.ofMembers?_eq

theorem HasForm.ofValue?_eq (h : v.HasForm x) (hv : v.Writable) : ofValue? x = some v := by
  cases h with
  | text h => exact h.parse_eq hv
  | string h hstring =>
    rw [ofValue?_object, hstring]
    exact h.parse_eq hv
  | fields h => exact h.ofValue?_eq

end Version

namespace Host

open Version

variable {v : Version} {x y : Value}

theorem version_of_forms (hv : v.Writable) (hx : v.HasForm x) (hy : v.HasForm y) :
    version x y = .ok .eq := by
  rw [version_of_readable (hx.ofValue?_eq hv) (hy.ofValue?_eq hv), Version.compare_eq_cmp,
    cmp_self_eq_eq]

/-- Every form is read as the version. So the version comparer finds any two forms equal, and they count
as equal if one of them names it; but if the left one names another comparer, that one is asked. -/
theorem compare_forms (hv : v.Writable) :
    (∀ x, v.HasForm x → ofValue? x = some v) ∧
    ∀ x y, v.HasForm x → v.HasForm y →
      builtins.call versionName compareMethod [x, y] = .ok (.number (Number.ofOrdering .eq)) ∧
      (x.comparer? = some versionName ∨ y.comparer? = some versionName →
        (∀ name ∈ x.comparer?, name = versionName) → builtins.compare x y = .ok .eq) := by
  refine ⟨fun x hx ↦ hx.ofValue?_eq hv, fun x y hx hy ↦ ?_⟩
  have hanswer : builtins.call versionName compareMethod [x, y] =
      .ok (.number (Number.ofOrdering .eq)) := by
    rw [builtins_call, version_of_forms hv hx hy]
    rfl
  exact ⟨hanswer, fun hnamed honly ↦
    compare_of_answer builtins (deciding?_eq_of_named hnamed honly) hanswer⟩

/-- A text without the build number, and two objects that name the comparer: one with the full text and
something else as its major number, one with neither fix nor build number. -/
theorem compare_forms_of_default :
    let v : Version := ⟨2, 10, 0, "rc_é", 0⟩
    let named (rest : List (String × Value)) := Value.object ⟨("$comparer", .text versionName) :: rest⟩
    let a := Value.text "2.10.0.rc_é"
    let b := named [("$string", .text "2.10.0.rc_é-0"), ("major", .null)]
    let c := named [("major", .number (.integer 2 (by decide))), ("minor", .number (.integer 10 (by decide))),
      ("qualifier", .text "rc_é")]
    v.Writable ∧ (v.HasForm a ∧ v.HasForm b ∧ v.HasForm c) ∧
      (ofValue? a = some v ∧ ofValue? b = some v ∧ ofValue? c = some v) ∧
      builtins.compare a b = .ok .eq ∧ builtins.compare c a = .ok .eq ∧
      builtins.compare b c = .ok .eq := by
  intro v named a b c
  have hqualifier : "rc_é".toList.all isQualifierChar = true := rfl
  have hv : v.Writable :=
    ⟨by decide, by decide, by decide, by decide, List.all_eq_true.1 hqualifier⟩
  have htext : v.textToQualifier = "2.10.0.rc_é" := by decide
  have hfull : v.fullText = "2.10.0.rc_é-0" := by decide
  have ha : v.HasForm a := .text (htext ▸ .toQualifier rfl)
  have hb : v.HasForm b := .string (hfull ▸ .full) rfl
  have hc : v.HasForm c := .fields
    { no_string := fun s h ↦ by cases h
      major := ⟨_, rfl⟩
      minor := ⟨_, rfl⟩
      fix := .inr ⟨rfl, rfl⟩
      qualifier := .inl rfl
      build := .inr ⟨rfl, rfl⟩ }
  have honly (name : String) (h : name ∈ some versionName) : name = versionName :=
    (Option.mem_some.1 h).symm
  obtain ⟨hread, hcompare⟩ := compare_forms hv
  exact ⟨hv, ⟨ha, hb, hc⟩, ⟨hread a ha, hread b hb, hread c hc⟩,
    (hcompare a b ha hb).2 (.inr rfl) (fun _ h ↦ by cases h),
    (hcompare c a hc ha).2 (.inl rfl) honly, (hcompare b c hb hc).2 (.inl rfl) honly⟩

/-- With another comparer on the left value that of the right one is not asked. -/
theorem compare_forms_foreign :
    ¬ ∀ v : Version, v.Writable →
      (∀ x, v.HasForm x → ofValue? x = some v) ∧
      ∀ x y, v.HasForm x → v.HasForm y →
        x.comparer? = some versionName ∨ y.comparer? = some versionName →
          builtins.compare x y = .ok .eq := by
  intro h
  let v : Version := ⟨1, 2, 0, "", 0⟩
  let naming (name : String) := Value.object ⟨[("$comparer", .text name), ("$string", .text "1.2")]⟩
  have hv : v.Writable :=
    ⟨by decide, by decide, by decide, by decide, List.all_eq_true.1 rfl⟩
  have htext : v.textToMinor = "1.2" := by decide
  have hform (name : String) : v.HasForm (naming name) := .string (htext ▸ .toMinor rfl rfl rfl) rfl
  have hequal := (h v hv).2 (naming "other") (naming versionName) (hform _) (hform _) (.inr rfl)
  have hunknown : builtins.compare (naming "other") (naming versionName) =
    .error (.unknownMethod "other" compareMethod) := rfl
  rw [hunknown] at hequal
  cases hequal

end Host

end CloutQuery
