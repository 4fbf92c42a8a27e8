import LogIntake.Codec.Registry
import LogIntake.Gelf.Codec

/-!
# Sessions

A session is a registry of codecs, codecs that have been built from it and put
into named slots, and the count of payloads that held more than one document.
The count is shared by all codecs: each command adds the drops among its events.
-/

namespace LogIntake

/-- The state of a session. -/
structure Session where
  registry : Registry
  slots : NameMap Codec
  dropped : Nat

/-- What can be asked of a session. -/
inductive Command
  | registerGelf (policy : Field.Policy)
  | registerPlain (name displayName : Text) (reported? : Option Text) (schema : Schema)
  | build (slot name : Text) (configuration? : Option Text)
  | decode (slot : Text) (raw : RawMessage)
  | notify (raw : RawMessage)
  | names
  | descriptor (name : Text)
  | schema (name : Text)

/-- What a session answers. -/
inductive Reply
  | done
  | refused (error : Configuration.Error)
  | built (codec : Codec)
  | decoded (result : Except DecodingError Message)
  | noCodec
  | names (names : List Text) (label : Text)
  | descriptor (descriptor? : Option Descriptor)
  | schema (schema? : Option Schema)

namespace Session

/-- The session at the start. -/
def empty : Session :=
  ⟨.empty, .empty, 0⟩

/-- Adds a registration. -/
def register (session : Session) (registration : Registration) :
    Logged (Reply × Session) := do
  match ← session.registry.register registration with
  | .error error => pure (.refused error, session)
  | .ok registry => pure (.done, { session with registry := registry })

/-- Builds a codec and puts it into a slot; the slot is kept if that fails. -/
def build (session : Session) (slot name : Text) (configuration? : Option Text) :
    Logged (Reply × Session) :=
  match configuration?.mapM Configuration.ofText with
  | .error error => pure (.refused error, session)
  | .ok configuration? => do
    match ← session.registry.build name configuration? with
    | .error error => pure (.refused error, session)
    | .ok codec => pure (.built codec, { session with slots := session.slots.insert slot codec })

/-- Decodes with the codec in a slot. -/
def decode (session : Session) (slot : Text) (raw : RawMessage) : Logged Reply :=
  match session.slots.get? slot with
  | none => pure .noCodec
  | some codec => do
    let result ← codec.decode raw
    pure (.decoded result)

/-- Answers a command, but for the count of drops. -/
def answer (session : Session) : Command → Logged (Reply × Session)
  | .registerGelf policy => session.register (Gelf.Codec.registration policy)
  | .registerPlain name displayName reported? schema =>
    match Descriptor.create name displayName with
    | .error error => pure (.refused error, session)
    | .ok descriptor =>
      session.register (PlainText.registration descriptor schema (reported?.getD name))
  | .build slot name configuration? => session.build slot name configuration?
  | .decode slot raw => do
    let reply ← session.decode slot raw
    pure (reply, session)
  | .notify raw => do
    Logged.note (.fragmentDropped raw)
    pure (.done, session)
  | .names => pure (.names session.registry.names session.registry.label, session)
  | .descriptor name => pure (.descriptor (session.registry.descriptor? name), session)
  | .schema name => pure (.schema (session.registry.schema? name), session)

/-- Answers a command and counts the drops. -/
def perform (session : Session) (command : Command) : Logged (Reply × Session) :=
  let answered := session.answer command
  let (reply, session) := answered.value
  ⟨(reply, { session with dropped := session.dropped + Event.drops answered.events }),
    answered.events⟩

end Session

end LogIntake
