import LogIntake.Proofs.Gelf.Losses
import LogIntake.Proofs.Json.Reading
import LogIntake.Proofs.Registry
import LogIntake.Session

/-!
# Runs of sessions

A session registers codecs, builds them and decodes with them in any order. All codecs
that it builds are GELF codecs or plain text codecs, because it registers no others, and
this is kept by every command.

The count of lost documents goes up with each direct notice and with each glued payload
that a GELF codec decodes, by one. No other command changes it.
-/

namespace LogIntake

/-! ## The codecs of a session -/

/-- A codec of one of the two kinds that a session registers. -/
inductive Codec.IsOrdinary : Codec → Prop
  | gelf (codec : Gelf.Codec) : IsOrdinary codec.toCodec
  | plainText (descriptor : Descriptor) (settings : Settings) :
    IsOrdinary ⟨descriptor, settings, false, PlainText.decode settings⟩

/-- A registration that builds codecs of one of the two kinds. -/
inductive Registration.IsOrdinary : Registration → Prop
  | gelf (policy : Field.Policy) : IsOrdinary (Gelf.Codec.registration policy)
  | plainText (descriptor : Descriptor) (schema : Schema) (reported : Text) :
    IsOrdinary (PlainText.registration descriptor schema reported)

namespace Registration

variable {registration : Registration}

theorem IsOrdinary.codec {configuration? : Option Configuration} {codec : Codec}
    (ordinary : registration.IsOrdinary)
    (made : (registration.factory configuration?).value = .ok codec) : codec.IsOrdinary := by
  cases ordinary with
  | gelf policy =>
      change (Gelf.Codec.build policy configuration?).value.map Gelf.Codec.toCodec = .ok codec
        at made
      cases built : (Gelf.Codec.build policy configuration?).value with
      | error error =>
          rw [built] at made
          contradiction
      | ok gelf =>
          rw [built] at made
          cases made
          exact .gelf gelf
  | plainText descriptor schema reported =>
      change PlainText.build reported configuration? = .ok codec at made
      obtain ⟨_, -, made⟩ := Json.exists_of_bind_eq_ok made
      obtain ⟨_, -, made⟩ := Json.exists_of_bind_eq_ok made
      cases made
      exact .plainText _ _

theorem IsOrdinary.lossless_factory (ordinary : registration.IsOrdinary)
    (configuration? : Option Configuration) :
    Gelf.Lossless (registration.factory configuration?) := by
  cases ordinary with
  | gelf policy => exact (Gelf.Codec.lossless_build _ _).bind (Logged.notes_pure _)
  | plainText descriptor schema reported => exact Logged.notes_pure _

theorem IsOrdinary.lossless_build (ordinary : registration.IsOrdinary)
    (configuration? : Option Configuration) :
    Gelf.Lossless (registration.build configuration?) := by
  unfold build
  split
  · exact Logged.notes_pure _
  · exact (ordinary.lossless_factory _).bind (Logged.notes_pure _)

end Registration

namespace Session

/-- Only GELF codecs and plain text codecs are registered or have been built. -/
structure Ordinary (session : Session) : Prop where
  registrations : ∀ name registration,
    session.registry.registrations.get? name = some registration → registration.IsOrdinary
  slots : ∀ slot codec, session.slots.get? slot = some codec → codec.IsOrdinary

variable {session : Session}

theorem ordinary_empty : Ordinary .empty := by
  constructor
  · exact fun name registration found => nomatch found
  · exact fun slot codec found => nomatch found

/-! ## One command -/

/-- An answer that loses nothing: the count stands, and there are only codecs of the two
kinds again. -/
structure Quiet (session : Session) (answered : Logged (Reply × Session)) : Prop where
  lossless : Gelf.Lossless answered
  ordinary : answered.value.2.Ordinary
  dropped_eq : answered.value.2.dropped = session.dropped

theorem Ordinary.quiet_pure (ordinary : session.Ordinary) (reply : Reply) :
    session.Quiet (pure (reply, session)) :=
  ⟨Logged.notes_pure _, ordinary, rfl⟩

theorem Ordinary.register (ordinary : session.Ordinary) {registration : Registration}
    (isOrdinary : registration.IsOrdinary) (name : Text) :
    Ordinary { session with
      registry := ⟨session.registry.registrations.insert name registration⟩ } := by
  constructor
  · intro other found held
    rw [NameMap.get?_insert] at held
    split at held
    · cases held
      exact isOrdinary
    · exact ordinary.registrations other found held
  · exact ordinary.slots

theorem Ordinary.store (ordinary : session.Ordinary) {codec : Codec}
    (isOrdinary : codec.IsOrdinary) (slot : Text) :
    Ordinary { session with slots := session.slots.insert slot codec } := by
  constructor
  · exact ordinary.registrations
  · intro other found held
    rw [NameMap.get?_insert] at held
    split at held
    · cases held
      exact isOrdinary
    · exact ordinary.slots other found held

theorem Ordinary.quiet_register (ordinary : session.Ordinary) {registration : Registration}
    (isOrdinary : registration.IsOrdinary) : session.Quiet (session.register registration) := by
  unfold Session.register Registry.register
  dsimp only
  split
  · exact ordinary.quiet_pure _
  · refine ⟨?_, ordinary.register isOrdinary _, rfl⟩
    refine Logged.Notes.bind (Logged.Notes.note_bind rfl (Logged.notes_pure _)) ?_
    exact Logged.notes_pure _

theorem Ordinary.quiet_build (ordinary : session.Ordinary) (slot name : Text)
    (configuration? : Option Text) : session.Quiet (session.build slot name configuration?) := by
  unfold build
  split
  · exact ordinary.quiet_pure _
  · rename_i configuration? _
    unfold Registry.build
    cases found : session.registry.registrations.get? name with
    | none => exact ordinary.quiet_pure _
    | some registration =>
        have isOrdinary := ordinary.registrations name registration found
        have lossless := isOrdinary.lossless_build configuration?
        dsimp only
        cases built : (registration.build configuration?).value with
        | error error =>
            refine ⟨lossless.bind ?_, ?_, ?_⟩ <;> simp only [Logged.value_bind, built]
            · exact Logged.notes_pure _
            · exact ordinary
            · rfl
        | ok codec =>
            have made := isOrdinary.codec (Registration.build_eq_ok_iff.mp built).2.1
            refine ⟨lossless.bind ?_, ?_, ?_⟩ <;> simp only [Logged.value_bind, built]
            · exact Logged.notes_pure _
            · exact ordinary.store made slot
            · rfl

end Session

/-- A direct notice that a payload held more than one document. -/
def Command.isNotice : Command → Bool
  | .notify _ => true
  | _ => false

namespace Session

variable {session : Session}

/-- A command decodes a glued payload with a GELF codec. -/
def DecodesGlued (session : Session) (command : Command) : Prop :=
  ∃ slot raw codec, command = .decode slot raw ∧
    session.slots.get? slot = some (Gelf.Codec.toCodec codec) ∧
    codec.decoder.isGlued raw.payload = true

/-- Decoding with a GELF codec loses a document when the payload is glued. -/
theorem drops_decode_gelf {slot : Text} {codec : Gelf.Codec}
    (held : session.slots.get? slot = some codec.toCodec) (raw : RawMessage) :
    Event.drops (session.decode slot raw).events =
      (codec.decoder.isGlued raw.payload).toNat := by
  unfold decode
  simp only [held, Logged.events_bind, Logged.events_pure, List.append_nil]
  exact Gelf.Codec.drops_decode codec raw

theorem drops_decode_plainText {slot : Text} {descriptor : Descriptor} {settings : Settings}
    (held : session.slots.get? slot = some ⟨descriptor, settings, false, PlainText.decode settings⟩)
    (raw : RawMessage) : Event.drops (session.decode slot raw).events = 0 := by
  unfold decode
  simp only [held, Logged.events_bind, Logged.events_pure, List.append_nil]
  exact (PlainText.lossless_decode settings raw).drops_eq_zero

theorem drops_decode_none {slot : Text} (absent : session.slots.get? slot = none)
    (raw : RawMessage) : Event.drops (session.decode slot raw).events = 0 := by
  unfold decode
  simp only [absent]
  rfl

/-- A decoding command loses a document when it decodes a glued payload with a GELF
codec, and none otherwise. -/
theorem Ordinary.drops_decode (ordinary : session.Ordinary) (slot : Text) (raw : RawMessage)
    [Decidable (session.DecodesGlued (.decode slot raw))] :
    Event.drops (session.decode slot raw).events =
      if session.DecodesGlued (.decode slot raw) then 1 else 0 := by
  split
  · rename_i decodesGlued
    obtain ⟨slot, raw, codec, same, held, glued⟩ := decodesGlued
    cases same
    rw [drops_decode_gelf held, glued, Bool.toNat_true]
  · rename_i decodesNone
    cases held : session.slots.get? slot with
    | none => exact drops_decode_none held raw
    | some codec =>
        cases ordinary.slots slot codec held with
        | gelf codec =>
            rw [drops_decode_gelf held, Bool.toNat_eq_zero, Bool.eq_false_iff]
            exact fun glued => decodesNone ⟨slot, raw, codec, rfl, held, glued⟩
        | plainText descriptor settings => exact drops_decode_plainText held raw

theorem not_decodesGlued {command : Command} (other : ∀ slot raw, command ≠ .decode slot raw) :
    ¬ session.DecodesGlued command := by
  rintro ⟨slot, raw, _, same, -⟩
  exact other slot raw same

theorem Quiet.perform {command : Command} (quiet : session.Quiet (session.answer command)) :
    (session.perform command).value.2.Ordinary ∧
      (session.perform command).value.2.dropped = session.dropped := by
  constructor
  · exact ⟨quiet.ordinary.registrations, quiet.ordinary.slots⟩
  · change (session.answer command).value.2.dropped + Event.drops (session.answer command).events =
      session.dropped
    rw [quiet.lossless.drops_eq_zero, quiet.dropped_eq, Nat.add_zero]

open Classical in
/-- What a command does: the session stays ordinary, and the count goes up by one for a
notice and for a glued payload that a GELF codec decodes. -/
theorem Ordinary.perform_spec (ordinary : session.Ordinary) (command : Command) :
    (session.perform command).value.2.Ordinary ∧
      (session.perform command).value.2.dropped =
        session.dropped + (command.isNotice.toNat +
          if session.DecodesGlued command then 1 else 0) := by
  cases command with
  | decode slot raw =>
      constructor
      · exact ⟨ordinary.registrations, ordinary.slots⟩
      · change session.dropped + Event.drops ((session.decode slot raw).events ++ []) = _
        rw [List.append_nil, ordinary.drops_decode]
        simp only [Command.isNotice, Bool.toNat_false, Nat.zero_add]
  | notify raw =>
      constructor
      · exact ⟨ordinary.registrations, ordinary.slots⟩
      · rw [if_neg (not_decodesGlued fun _ _ => Command.noConfusion)]
        rfl
  | registerGelf policy =>
      rw [if_neg (not_decodesGlued fun _ _ => Command.noConfusion)]
      exact (ordinary.quiet_register (.gelf policy)).perform
  | registerPlain name displayName reported? schema =>
      rw [if_neg (not_decodesGlued fun _ _ => Command.noConfusion)]
      refine Quiet.perform ?_
      unfold answer
      dsimp only
      split
      · exact ordinary.quiet_pure _
      · exact ordinary.quiet_register (.plainText _ _ _)
  | build slot name configuration? =>
      rw [if_neg (not_decodesGlued fun _ _ => Command.noConfusion)]
      exact Quiet.perform (ordinary.quiet_build slot name configuration?)
  | names | descriptor | schema =>
      rw [if_neg (not_decodesGlued fun _ _ => Command.noConfusion)]
      exact Quiet.perform (ordinary.quiet_pure _)

/-! ## Runs -/

/-- The session after commands in turn. -/
def after (session : Session) (commands : List Command) : Session :=
  commands.foldl (fun session command => (session.perform command).value.2) session

open Classical in
/-- How many of the commands decode a glued payload with a GELF codec, when they are
performed in turn. -/
noncomputable def gluedDecodes (session : Session) : List Command → Nat
  | [] => 0
  | command :: commands =>
    (if session.DecodesGlued command then 1 else 0) +
      (session.perform command).value.2.gluedDecodes commands

theorem after_append (session : Session) (front back : List Command) :
    session.after (front ++ back) = (session.after front).after back :=
  List.foldl_append

/-- What commands in turn do to the count. -/
theorem Ordinary.after_spec (ordinary : session.Ordinary) (commands : List Command) :
    (session.after commands).Ordinary ∧
      (session.after commands).dropped =
        session.dropped + (commands.countP Command.isNotice + session.gluedDecodes commands) := by
  induction commands generalizing session with
  | nil => exact ⟨ordinary, rfl⟩
  | cons command commands ih =>
      obtain ⟨stillOrdinary, step⟩ := ordinary.perform_spec command
      obtain ⟨atEnd, run⟩ := ih stillOrdinary
      refine ⟨atEnd, run.trans ?_⟩
      rw [step, gluedDecodes, List.countP_cons]
      cases command.isNotice <;> simp only [Bool.toNat_true, Bool.toNat_false, if_true,
        Bool.false_eq_true, if_false] <;> omega

/-- A GELF codec in a slot answers what it decodes. -/
theorem reply_decode_gelf {slot : Text} {codec : Gelf.Codec}
    (held : session.slots.get? slot = some codec.toCodec) (raw : RawMessage) :
    (session.perform (.decode slot raw)).value.1 = .decoded (codec.decode raw).value := by
  change (session.decode slot raw).value = _
  unfold decode
  rw [held]
  rfl

/-- A command adds one to the count or nothing. -/
theorem Ordinary.dropped_perform (ordinary : session.Ordinary) (command : Command) :
    ((command.isNotice = true ∨ session.DecodesGlued command) →
        (session.perform command).value.2.dropped = session.dropped + 1) ∧
      (¬ (command.isNotice = true ∨ session.DecodesGlued command) →
        (session.perform command).value.2.dropped = session.dropped) := by
  have step := (ordinary.perform_spec command).2
  constructor
  · rintro (notice | glued)
    · have other : ∀ slot raw, command ≠ .decode slot raw := by
        rintro slot raw rfl
        contradiction
      rw [step, notice, if_neg (not_decodesGlued other), Bool.toNat_true]
    · obtain ⟨slot, raw, codec, rfl, -⟩ := id glued
      rw [step, if_pos glued]
      rfl
  · intro neither
    obtain ⟨noNotice, notGlued⟩ := not_or.mp neither
    rw [step, if_neg notGlued, Bool.eq_false_iff.mpr noNotice]
    rfl

/-- A GELF codec reports the violation of a document, glued or not. -/
theorem reply_decode_violation {slot : Text} {codec : Gelf.Codec} {raw : RawMessage} {text : Text}
    {document : Json.Document} {violation : Gelf.Violation}
    (held : session.slots.get? slot = some codec.toCodec)
    (text_eq : (Gelf.Payload.toText raw.payload codec.limit codec.settings.charset).value =
      .ok text)
    (read_eq : Json.Document.ofText text = .ok document)
    (violated : Gelf.check document.value.members = .error violation) :
    (session.perform (.decode slot raw)).value.1 =
      .decoded (.error (.validation raw (violation.message raw) text)) := by
  have decoderText : (Gelf.Payload.toText raw.payload codec.decoder.limit
      codec.decoder.charset).value = .ok text := text_eq
  have decoded : (codec.decoder.decode raw).value =
      (Gelf.decodeDocument codec.policy raw text document).value :=
    (Gelf.decode_of_document decoderText read_eq).1
  rw [Gelf.value_decodeDocument, violated] at decoded
  rw [reply_decode_gelf held, Gelf.Codec.value_decode, decoded]
  rfl

/-- A payload that fails before its document is checked is not counted. -/
theorem not_counted_of_error {command : Command} {error : DecodingError}
    (failed : (session.perform command).value.1 = .decoded (.error error))
    (early : error.stage ≠ .validation) :
    ¬ (command.isNotice = true ∨ session.DecodesGlued command) := by
  rintro (notice | ⟨slot, raw, codec, rfl, held, glued⟩)
  · cases command with
    | notify raw => cases failed
    | _ => contradiction
  · rw [reply_decode_gelf held] at failed
    have failed := Gelf.Codec.error_of_decode (Reply.decoded.inj failed)
    rw [Gelf.isGlued_eq_false_of_error failed early] at glued
    contradiction

/-- The count of lost documents after any commands is the number of notices and of glued
payloads that GELF codecs have decoded. Each command adds one to it or nothing. A payload
that fails before its document is checked adds nothing; a glued one whose document fails
the check is counted all the same. Building a codec loses nothing. -/
theorem dropped_after_commands {start : Session} (ordinary : start.Ordinary)
    (commands : List Command) :
    (start.after commands).dropped =
        start.dropped + (commands.countP Command.isNotice + start.gluedDecodes commands) ∧
      (∀ front command back, commands = front ++ command :: back →
        let before := start.after front
        let next := start.after (front ++ [command])
        let reply := (before.perform command).value.1
        ((command.isNotice = true ∨ before.DecodesGlued command) →
          next.dropped = before.dropped + 1) ∧
        (¬ (command.isNotice = true ∨ before.DecodesGlued command) →
          next.dropped = before.dropped) ∧
        (∀ error, reply = .decoded (.error error) → error.stage ≠ .validation →
          next.dropped = before.dropped) ∧
        ∀ slot raw codec text document violation, command = .decode slot raw →
          before.slots.get? slot = some (Gelf.Codec.toCodec codec) →
          (Gelf.Payload.toText raw.payload codec.limit codec.settings.charset).value = .ok text →
          Json.Document.ofText text = .ok document → document.isFollowed = true →
          Gelf.check document.value.members = .error violation →
          reply = .decoded (.error (.validation raw (violation.message raw) text)) ∧
            next.dropped = before.dropped + 1) ∧
      ∀ policy configuration?, Event.drops (Gelf.Codec.build policy configuration?).events = 0 := by
  refine ⟨(ordinary.after_spec commands).2, fun front command back _ => ?_,
    fun policy configuration? => (Gelf.Codec.lossless_build policy configuration?).drops_eq_zero⟩
  intro before next reply
  have ordinaryBefore : before.Ordinary := (ordinary.after_spec front).1
  have performed : (before.perform command).value.2 = next :=
    (start.after_append front [command]).symm
  obtain ⟨counted, uncounted⟩ := ordinaryBefore.dropped_perform command
  rw [performed] at counted uncounted
  refine ⟨counted, uncounted,
    fun error failed early => uncounted (not_counted_of_error failed early), ?_⟩
  rintro slot raw codec text document violation rfl held text_eq read_eq followed violated
  refine ⟨reply_decode_violation held text_eq read_eq violated, counted (.inr ?_)⟩
  exact ⟨slot, raw, codec, rfl, held,
    Gelf.Decoder.isGlued_eq_true_iff.mpr ⟨text, document, text_eq, read_eq, followed⟩⟩

/-- Two documents in one payload, of which the first has no entries. -/
def gluedRaw : RawMessage :=
  ⟨.nil, "\x7b\x7d\x7b\x7d".toList.map fun c => UInt8.ofNat c.toNat, none, ⟨0, 0⟩⟩

/-- A GELF codec is registered and built, then one loss is noticed, and the glued payload
and an empty one are decoded. -/
def gluedRun : List Command :=
  [.registerGelf .standard, .build ['a'] Gelf.Codec.name none, .notify gluedRaw,
    .decode ['a'] gluedRaw, .decode ['a'] { gluedRaw with payload := [] }]

/-- Of the two payloads the glued one is counted, although it fails the check. -/
theorem dropped_after_gluedRun :
    Ordinary .empty ∧ (Session.empty.after gluedRun).dropped = 2 ∧
      Session.empty.gluedDecodes gluedRun = 1 ∧
      ∃ reason text,
        ((Session.empty.after (gluedRun.take 3)).perform (.decode ['a'] gluedRaw)).value.1 =
          .decoded (.error (.validation gluedRaw reason text)) := by
  obtain ⟨counted, steps, -⟩ := dropped_after_commands ordinary_empty gluedRun
  have run : (Session.empty.after gluedRun).dropped = 2 := rfl
  have notices : gluedRun.countP Command.isNotice = 1 := rfl
  have start : Session.empty.dropped = 0 := rfl
  obtain ⟨-, -, -, violates⟩ :=
    steps (gluedRun.take 3) (.decode ['a'] gluedRaw) (gluedRun.drop 4) rfl
  have violated := violates ['a'] gluedRaw ⟨⟨.utf8, none⟩, Gelf.Codec.defaultLimit, .standard⟩
    "\x7b\x7d\x7b\x7d".toList ⟨.object [], true⟩ .noMessage rfl rfl rfl rfl rfl rfl
  exact ⟨ordinary_empty, run, by omega, _, _, violated.1⟩

end Session

end LogIntake
