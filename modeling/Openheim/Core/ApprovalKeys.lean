import Openheim.Core.JsonSame
import Openheim.Core.SessionPermissions
import Openheim.Library.Separated

/-
This file says which calls share an approval key, and shows when these are the calls that an answer
is meant for.
-/

namespace Openheim

/-- The two zeros of a float are equal. -/
def unsigned (digits : String) : String := if digits = "-0.0" then "0.0" else digits

/-- Numbers compare as the JSON library compares them. -/
def sameNumber (a b : String) : Prop := unsigned a = unsigned b

theorem sameNumber_of_eq (a b : String) (equal : a = b) : sameNumber a b := congrArg unsigned equal

namespace SerdeJson

/-- What the JSON library does: a key of an object is kept once, different values are written as
different texts, and the text of a value is not raw arguments with their mark. -/
structure Faithful (json : SerdeJson) : Prop where
  distinct : ∀ text value, json.parse text = some value → value.Distinct
  injective : ∀ a b v w, json.parse a = some v → json.parse b = some w →
    json.print v.sortedKeys = json.print w.sortedKeys → v.sortedKeys = w.sortedKeys
  unmarked : ∀ text value rest, json.parse text = some value →
    json.print value.sortedKeys ≠ "unparsed:" ++ rest

/-- The texts are spellings of one value. -/
def Spell (json : SerdeJson) (number : String → String → Prop) (a b : String) : Prop :=
  ∃ v w, json.parse a = some v ∧ json.parse b = some w ∧ v.Same number w

/-- The arguments as a key records them. -/
def recorded (json : SerdeJson) (arguments : String) : String :=
  match json.parse arguments with
  | some value => json.print value.sortedKeys
  | none => "unparsed:" ++ arguments

variable {json : SerdeJson}

/-- A spelling under a strict reading of numbers is one under a looser reading. -/
theorem Spell.mono {stricter number : String → String → Prop}
    (implies : ∀ a b, stricter a b → number a b) {a b : String}
    (spell : json.Spell stricter a b) : json.Spell number a b := by
  obtain ⟨v, w, first, second, same⟩ := spell
  exact ⟨v, w, first, second, same.mono implies⟩

/-- A text that spells a value spells it for itself. -/
theorem Spell.self {number : String → String → Prop} {a b : String}
    (spell : json.Spell number a b) :
    json.Spell (· = ·) a a := by
  obtain ⟨v, w, first, second, same⟩ := spell
  exact ⟨v, v, first, first, Json.same_of_sortedKeys_eq rfl⟩

/-- Two texts are recorded alike when they spell the same value, or are the same text. -/
theorem Faithful.recorded_eq_iff (faithful : json.Faithful) (a b : String) :
    json.recorded a = json.recorded b ↔ json.Spell (· = ·) a b ∨ a = b := by
  unfold recorded Spell
  cases first : json.parse a with
  | none =>
      cases second : json.parse b with
      | none => simp
      | some w =>
          have different : a ≠ b := fun same => by simp [same, second] at first
          simpa [different] using (faithful.unmarked b w a second).symm
  | some v =>
      cases second : json.parse b with
      | none =>
          have different : a ≠ b := fun same => by simp [same, second] at first
          simpa [different] using faithful.unmarked a v b first
      | some w =>
          have values : json.print v.sortedKeys = json.print w.sortedKeys ↔ v.Same (· = ·) w := by
            rw [← Json.sortedKeys_eq_iff (faithful.distinct a v first)]
            exact ⟨faithful.injective a b v w first second, congrArg json.print⟩
          have identical : a = b → v.Same (· = ·) w := by
            rintro rfl
            obtain rfl : v = w := Option.some.inj (first.symm.trans second)
            exact values.mp rfl
          simpa [values] using identical

end SerdeJson

namespace GateSettings
variable (settings : GateSettings) (first second : PermissionRequest)

/-- The calls are calls of one tool, and of one with exact arguments only if
the arguments are the same. -/
def MeantTogether : Prop :=
  first.toolName = second.toolName ∧ (settings.approvalScope first.toolName = .toolName ∨
    settings.json.Spell sameNumber first.arguments second.arguments ∨
      first.arguments = second.arguments)

/-- An answer to one call covers the other only if it is meant for it, and covers every other
spelling of its value. -/
def CoversAsMeant : Prop :=
  (settings.key first = settings.key second → settings.MeantTogether first second) ∧
    (first.toolName = second.toolName →
      settings.json.Spell sameNumber first.arguments second.arguments →
      settings.key first = settings.key second)

/-- The second tool's name is the name of the first tool, which is keyed with its arguments, and
then a colon and what these begin with: all that is recorded of them if the second tool is keyed by
name, and else what comes before a colon and the recorded arguments of the second call. -/
def Clashes : Prop :=
  settings.approvalScope first.toolName = .exactArguments ∧ ∃ rest,
    second.toolName = first.toolName ++ ":" ++ rest ∧
    settings.json.recorded first.arguments = match settings.approvalScope second.toolName with
      | .toolName => rest
      | .exactArguments => rest ++ ":" ++ settings.json.recorded second.arguments

/-- The arguments of a tool that is keyed with them are one value, but for the sign of a zero. -/
def DifferInZeroSign : Prop :=
  settings.approvalScope first.toolName = .exactArguments ∧ first.toolName = second.toolName ∧
    settings.json.Spell sameNumber first.arguments second.arguments ∧
      ¬ settings.json.Spell (· = ·) first.arguments second.arguments

variable {settings first second}

/-- A tool approved by name has its name for a key. -/
theorem key_byName (scope : settings.approvalScope first.toolName = .toolName) :
    settings.key first = first.toolName := by
  rw [key, scope, approvalKey]

/-- A call approved with its arguments has them in its key. -/
theorem key_exact (scope : settings.approvalScope first.toolName = .exactArguments) :
    settings.key first = first.toolName ++ ":" ++ settings.json.recorded first.arguments := by
  rw [key, scope, approvalKey, SerdeJson.recorded]
  cases settings.json.parse first.arguments with
  | some value => rfl
  | none =>
      have mark : ":unparsed:" = ":" ++ "unparsed:" := rfl
      simp only [mark, String.append_assoc]

/-- Calls clash only across different tools. -/
theorem Clashes.differ (clashes : settings.Clashes first second) :
    first.toolName ≠ second.toolName := by
  obtain ⟨scope, rest, name, recorded⟩ := clashes
  intro same
  have lengths := congrArg String.length (same.trans name)
  have colon : ":".length = 1 := rfl
  rw [String.length_append, String.length_append, colon] at lengths
  omega

theorem Clashes.key_eq (clashes : settings.Clashes first second) :
    settings.key first = settings.key second := by
  obtain ⟨scope, rest, name, recorded⟩ := clashes
  rw [key_exact scope, recorded]
  cases other : settings.approvalScope second.toolName with
  | toolName => rw [key_byName other, name]
  | exactArguments => rw [key_exact other, name]; simp only [String.append_assoc]

/-- Calls of different tools share a key only if the name of one goes on with
the arguments of the other. -/
theorem clashes_of_key_eq (differ : first.toolName ≠ second.toolName)
    (equal : settings.key first = settings.key second) :
    settings.Clashes first second ∨ settings.Clashes second first := by
  cases scope : settings.approvalScope first.toolName with
  | toolName =>
      cases other : settings.approvalScope second.toolName with
      | toolName => exact absurd (by rwa [key_byName scope, key_byName other] at equal) differ
      | exactArguments =>
          rw [key_byName scope, key_exact other] at equal
          exact .inr ⟨other, _, equal, by rw [scope]⟩
  | exactArguments =>
      cases other : settings.approvalScope second.toolName with
      | toolName =>
          rw [key_exact scope, key_byName other] at equal
          exact .inl ⟨scope, _, equal.symm, by rw [other]⟩
      | exactArguments =>
          rw [key_exact scope, key_exact other] at equal
          rcases Separated.colon_cases equal with
            ⟨same, -⟩ | ⟨rest, name, recorded⟩ | ⟨rest, name, recorded⟩
          · exact absurd same differ
          · exact .inl ⟨scope, rest, name, by rw [other, recorded]⟩
          · exact .inr ⟨other, rest, name, by rw [scope, recorded]⟩

theorem key_eq_iff_of_same_tool (faithful : settings.json.Faithful)
    (same : first.toolName = second.toolName) :
    settings.key first = settings.key second ↔ settings.approvalScope first.toolName = .toolName ∨
      settings.json.Spell (· = ·) first.arguments second.arguments ∨
        first.arguments = second.arguments := by
  cases scope : settings.approvalScope first.toolName with
  | toolName => simp [key_byName scope, key_byName (same ▸ scope), same]
  | exactArguments =>
      rw [key_exact scope, key_exact (same ▸ scope), ← same, String.append_right_inj,
        faithful.recorded_eq_iff]
      simp

/-- Calls that share a key are those that are meant together, unless a name goes on with arguments
or a zero has another sign. -/
theorem coversAsMeant_iff (faithful : settings.json.Faithful) :
    settings.CoversAsMeant first second ↔ ¬ settings.Clashes first second ∧
      ¬ settings.Clashes second first ∧
      ¬ settings.DifferInZeroSign first second := by
  by_cases same : first.toolName = second.toolName
  · have apart : ¬ settings.Clashes first second ∧ ¬ settings.Clashes second first :=
      ⟨fun clashes => clashes.differ same, fun clashes => clashes.differ same.symm⟩
    have looser : settings.json.Spell (· = ·) first.arguments second.arguments →
        settings.json.Spell sameNumber first.arguments second.arguments :=
          SerdeJson.Spell.mono sameNumber_of_eq
    unfold CoversAsMeant MeantTogether DifferInZeroSign
    rw [key_eq_iff_of_same_tool faithful same]
    constructor
    · rintro ⟨-, spellings⟩
      refine ⟨apart.1, apart.2, ?_⟩
      rintro ⟨scope, -, spell, different⟩
      rcases spellings same spell with byName | strict | identical
      · exact absurd (scope.symm.trans byName) (by decide)
      · exact different strict
      · exact different (identical ▸ spell.self)
    · rintro ⟨-, -, signs⟩
      refine ⟨fun shared => ⟨same, shared.imp_right (Or.imp_left looser)⟩, fun _ spell => ?_⟩
      cases scope : settings.approvalScope first.toolName with
      | toolName => exact .inl rfl
      | exactArguments =>
        exact .inr (.inl (by_contra fun different => signs ⟨scope, same, spell, different⟩))
  · have noZeros : ¬ settings.DifferInZeroSign first second := fun zeros => same zeros.2.1
    constructor
    · rintro ⟨meant, -⟩
      exact ⟨fun clashes => same (meant clashes.key_eq).1,
        fun clashes => same (meant clashes.key_eq.symm).1, noZeros⟩
    · rintro ⟨forwards, backwards, -⟩
      refine ⟨fun equal => ?_, fun equal => absurd equal same⟩
      exact absurd (clashes_of_key_eq same equal) (not_or.mpr ⟨forwards, backwards⟩)

/-- A shell tool that is keyed with its arguments, and other tools that are keyed by name. -/
def sampleSettings : GateSettings where
  json := {
    parse := fun text =>
      if text = "\x7b\"command\":\"x\"\x7d" ∨ text = "\x7b \"command\": \"x\" \x7d" then
        some (.object [("command", .string "x")])
      else none
    print := fun _ => "\x7b\"command\":\"x\"\x7d" }
  alwaysAllowedTools := []
  approvalScope name := if name = "execute_command" then .exactArguments else .toolName

def sampleCall : PermissionRequest := .new "1" "execute_command" "\x7b\"command\":\"x\"\x7d"

def spacedCall : PermissionRequest := .new "2" "execute_command" "\x7b \"command\": \"x\" \x7d"

/-- A call of a tool that the model made up. -/
def namedCall : PermissionRequest := .new "3" "execute_command:\x7b\"command\":\"x\"\x7d" ""

theorem sampleSettings_faithful : sampleSettings.json.Faithful where
  distinct text value parsed := by
    obtain rfl := Option.some.inj (Option.ite_none_right_eq_some.mp parsed).2
    simp [Json.Distinct, Json.DistinctEntries]
  injective a b v w first second _ := by
    obtain rfl := Option.some.inj (Option.ite_none_right_eq_some.mp first).2
    obtain rfl := Option.some.inj (Option.ite_none_right_eq_some.mp second).2
    rfl
  unmarked text value rest parsed equal := by
    have heads := congrArg (·.toList.head?) equal
    simp [sampleSettings] at heads

theorem coversAsMeant_sample : sampleSettings.CoversAsMeant sampleCall spacedCall := by
  refine (coversAsMeant_iff sampleSettings_faithful).mpr ⟨fun clashes => ?_, fun clashes => ?_,
    fun signs => ?_⟩
  · exact clashes.differ rfl
  · exact clashes.differ rfl
  · exact signs.2.2.2 ⟨_, _, by rfl, by rfl, Json.same_of_sortedKeys_eq rfl⟩

/-- Approving one command approves every call of a tool whose name is that command's key. -/
theorem name_is_key :
    sampleSettings.json.Faithful ∧ sampleSettings.key sampleCall = sampleSettings.key namedCall ∧
    ¬ sampleSettings.CoversAsMeant sampleCall namedCall := by
  have shared : sampleSettings.key sampleCall = sampleSettings.key namedCall := by decide
  exact ⟨sampleSettings_faithful, shared, fun meant => absurd (meant.1 shared).1 (by decide)⟩

end GateSettings

end Openheim
