import LogIntake.Proofs.Gelf.Building
import LogIntake.Proofs.Gelf.Codec

/-!
# What decides the source

A codec decodes whatever its decoder decodes, and settles the source last. The entries of a
document have their say before that: they may name a source under several keys, and
whichever of them prevails is one source among three. A configured source takes the place of
any other, and the address of the sender is taken when there is none at all.
-/

namespace LogIntake

/-! ## Precedence -/

/-- The first source that there is: the configured one, that of the message, and the
address of the sender, which is the endpoint without its service. -/
def Settings.settledSource? (settings : Settings) (raw : RawMessage) (message : Message) :
    Option Text :=
  settings.overrideSource?.or (message.source?.or (raw.remote?.map fun remote => remote.ip.toText))

/-- Settling the source writes the first source there is, and nothing else. -/
theorem Settings.value_applySource_eq (settings : Settings) (raw : RawMessage)
    (message : Message) :
    (settings.applySource raw message).value =
      { message with source? := settings.settledSource? raw message } := by
  rw [value_applySource, replacement?, settledSource?]
  cases settings.overrideSource? with
  | some configured => rfl
  | none =>
      rcases message with ⟨_, source?, _, _, _, _, _, _, _⟩
      cases source? with
      | some source => rfl
      | none => cases raw.remote? <;> rfl

/-! ## Configured sources -/

section Configured

variable {configuration? : Option Configuration} {settings : Settings}

theorem Settings.overrideSource?_of_ofConfiguration
    (given : ofConfiguration configuration? = .ok settings) :
    settings.overrideSource? =
      (configuration?.bind (·.text? overrideSourceKey)).map Text.trim := by
  unfold ofConfiguration at given
  cases charset_eq : charsetOf configuration? with
  | error error =>
      rw [charset_eq] at given
      contradiction
  | ok charset =>
      rw [charset_eq] at given
      cases given
      rfl

/-- A text that is not blank is configured without the blanks at its ends. -/
theorem Settings.overrideSource?_of_filled
    (given : ofConfiguration configuration? = .ok settings) {text : Text}
    (held : configuration?.bind (·.get? overrideSourceKey) = some (.string text))
    (filled : text.isBlank = false) : settings.overrideSource? = some text.trim := by
  have text_eq : configuration?.bind (·.text? overrideSourceKey) = some text :=
    Configuration.bind_text?_eq_some_iff.mpr ⟨held, filled⟩
  rw [overrideSource?_of_ofConfiguration given, text_eq, Option.map_some]

/-- Blank texts and values of other kinds configure no source. -/
theorem Settings.overrideSource?_of_blank
    (given : ofConfiguration configuration? = .ok settings)
    (blank : ∀ text, configuration?.bind (·.get? overrideSourceKey) = some (.string text) →
      text.isBlank = true) : settings.overrideSource? = none := by
  rw [overrideSource?_of_ofConfiguration given, Option.map_eq_none_iff,
    Option.eq_none_iff_forall_ne_some]
  intro text text_eq
  rcases Configuration.bind_text?_eq_some_iff.mp text_eq with ⟨held, filled⟩
  rw [blank text held] at filled
  contradiction

end Configured

namespace Gelf.Codec

variable {policy : Field.Policy} {configuration? : Option Configuration} {codec : Codec}

theorem ofConfiguration_of_build (built : (build policy configuration?).value = .ok codec) :
    Settings.ofConfiguration configuration? = .ok codec.settings := by
  rw [value_build] at built
  cases settings_eq : Settings.ofConfiguration configuration? with
  | error error =>
      rw [settings_eq] at built
      contradiction
  | ok settings =>
      rw [settings_eq] at built
      cases limit_eq : limitOf configuration? with
      | error error =>
          rw [limit_eq] at built
          contradiction
      | ok limit =>
          rw [limit_eq] at built
          cases built
          rfl

/-- A codec fails as its decoder does, and succeeds with it. On success the two messages
differ in their sources at most: a configured text that is not blank is the source of every
message, whatever the payload says. Without one the source is that of the decoder, or else
the address of the sender, if there is either. -/
theorem source_settled_by_precedence (built : (build policy configuration?).value = .ok codec)
    (raw : RawMessage) :
    let configured? := configuration?.bind (·.get? "override_source".toList)
    (∀ error, (codec.decode raw).value = .error error ↔
        (codec.decoder.decode raw).value = .error error) ∧
      ((∃ settled, (codec.decode raw).value = .ok settled) ↔
        ∃ message, (codec.decoder.decode raw).value = .ok message) ∧
      ∀ settled message, (codec.decode raw).value = .ok settled →
        (codec.decoder.decode raw).value = .ok message →
        settled = { message with source? := settled.source? } ∧
          (∀ text, configured? = some (.string text) → text.isBlank = false →
            settled.source? = some text.trim) ∧
          ((∀ text, configured? = some (.string text) → text.isBlank = true) →
            settled.source? =
              message.source?.or (raw.remote?.map fun remote => remote.ip.toText)) := by
  intro configured?
  have given := ofConfiguration_of_build built
  rw [value_decode]
  cases outcome : (codec.decoder.decode raw).value with
  | error error => simp [Except.map]
  | ok message =>
      constructor
      · simp [Except.map]
      constructor
      · simp [Except.map]
      rintro settled _ settled_eq ⟨⟩
      have settled_eq : settled =
          { message with source? := codec.settings.settledSource? raw message } := by
        rw [← Settings.value_applySource_eq]
        exact (Except.ok.inj settled_eq).symm
      rw [settled_eq]
      constructor
      · rfl
      constructor
      · intro text held filled
        simp only [Settings.settledSource?, Settings.overrideSource?_of_filled given held filled,
          Option.some_or]
      · intro blank
        simp only [Settings.settledSource?, Settings.overrideSource?_of_blank given blank,
          Option.none_or]

/-- A configured source between blanks. -/
def overridingConfiguration : Configuration :=
  ⟨[(Settings.overrideSourceKey, .string " fixed ".toList)]⟩

/-- A document that names a source under two keys. -/
def namingDocument : Text :=
  "\x7b\"host\":\"h\",\"short_message\":\"m\",\"_source \":\"s\"\x7d".toList

/-- The entries of the document. -/
def namingMembers : Json.Members :=
  [(hostKey, .string ['h']), (shortMessageKey, .string ['m']), ("_source ".toList, .string ['s'])]

/-- The codec of the configuration. -/
def overridingCodec : Codec :=
  ⟨⟨.utf8, some "fixed".toList⟩, defaultLimit, .standard⟩

theorem build_overridingConfiguration :
    (build .standard (some overridingConfiguration)).value = .ok overridingCodec :=
  rfl

theorem ofText_namingDocument :
    Json.Document.ofText namingDocument = .ok ⟨.object namingMembers, false⟩ :=
  Json.toOption_eq_some_iff.mp (by decide +kernel)

/-- The configured source prevails over both that the document names. -/
theorem source_of_namingDocument :
    ∃ codec settled, (build .standard (some overridingConfiguration)).value = .ok codec ∧
      (codec.decode (rawOf namingDocument)).value = .ok settled ∧
      settled.source? = some "fixed".toList := by
  have held : (some overridingConfiguration).bind (·.get? "override_source".toList) =
      some (.string " fixed ".toList) := by decide +kernel
  have trimmed : Text.trim " fixed ".toList = "fixed".toList := by decide
  have naming := @value_toText_rawOf namingDocument (by decide +kernel) defaultLimit
  have decoded := @decode_of_checked (rawOf namingDocument) overridingCodec.decoder namingDocument
    ⟨.object namingMembers, false⟩ naming ofText_namingDocument rfl
  obtain ⟨-, succeeds, prevails⟩ :=
    source_settled_by_precedence build_overridingConfiguration (rawOf namingDocument)
  obtain ⟨settled, settled_eq⟩ := succeeds.mpr ⟨_, decoded⟩
  obtain ⟨-, overridden, -⟩ := prevails settled _ settled_eq decoded
  have source_eq : settled.source? = some (Text.trim " fixed ".toList) :=
    overridden " fixed ".toList held (by decide)
  rw [trimmed] at source_eq
  exact ⟨overridingCodec, settled, build_overridingConfiguration, settled_eq, source_eq⟩

end Gelf.Codec

end LogIntake
