import LogIntake.Text.Basic
import LogIntake.Text.Digits
import LogIntake.Text.Word
import LogIntake.Text.Quoted
import LogIntake.Binary64.Basic
import LogIntake.Binary64.Numeral
import LogIntake.Binary64.Shortest
import LogIntake.Json.Value
import LogIntake.Json.Equality
import LogIntake.Json.Fault
import LogIntake.Json.Escape
import LogIntake.Json.Numeral
import LogIntake.Json.Reader
import LogIntake.Json.Printer
import LogIntake.Json.Mended
import LogIntake.Json.NumeralWalk
import LogIntake.Json.Document
import LogIntake.Charset.Utf8
import LogIntake.Charset.Utf16
import LogIntake.Charset.Basic
import LogIntake.Compression.Delivery
import LogIntake.Compression.Bits
import LogIntake.Compression.PrefixCode
import LogIntake.Compression.Deflate
import LogIntake.Compression.Container
import LogIntake.NameMap
import LogIntake.Instant
import LogIntake.Address
import LogIntake.RawMessage
import LogIntake.Field
import LogIntake.Message.Basic
import LogIntake.Message.Json
import LogIntake.Gelf.Framing
import LogIntake.Event
import LogIntake.Configuration.Error
import LogIntake.Configuration.Basic
import LogIntake.Configuration.Schema
import LogIntake.Configuration.Settings
import LogIntake.Codec.Basic
import LogIntake.Codec.Registry
import LogIntake.Gelf.Payload
import LogIntake.Gelf.Entries
import LogIntake.Gelf.Validation
import LogIntake.Gelf.Decoder
import LogIntake.Gelf.Codec
import LogIntake.Session
import LogIntake.Proofs.Charset.Utf8
import LogIntake.Proofs.Charset.Utf16
import LogIntake.Proofs.Charset.Prefix
import LogIntake.Proofs.Compression.Delivery
import LogIntake.Proofs.NameMap
import LogIntake.Proofs.Trim
import LogIntake.Proofs.Field
import LogIntake.Proofs.Unbroken
import LogIntake.Proofs.Logged
import LogIntake.Proofs.Message
import LogIntake.Proofs.Message.History
import LogIntake.Proofs.Message.Object
import LogIntake.Proofs.Binary64.Truncation
import LogIntake.Proofs.Message.Setting
import LogIntake.Proofs.Json.Grammar
import LogIntake.Proofs.Json.Scanning
import LogIntake.Proofs.Json.Reading
import LogIntake.Proofs.Json.Mending
import LogIntake.Proofs.Json.Commas
import LogIntake.Proofs.Json.Unmending
import LogIntake.Proofs.Json.Standard
import LogIntake.Proofs.Json.Rewriting
import LogIntake.Proofs.Json.NumeralPattern
import LogIntake.Proofs.Json.NumeralWalk
import LogIntake.Proofs.Json.Documents
import LogIntake.Proofs.Json.Printing
import LogIntake.Proofs.Json.FurtherToken
import LogIntake.Proofs.Json.Printable
import LogIntake.Proofs.Json.Prefix
import LogIntake.Proofs.Gelf.Decoding
import LogIntake.Proofs.Gelf.Glued
import LogIntake.Proofs.Gelf.Framing
import LogIntake.Proofs.Gelf.Bounded
import LogIntake.Proofs.Gelf.Compressed
import LogIntake.Proofs.Gelf.Fields
import LogIntake.Proofs.Gelf.WriteOnce
import LogIntake.Proofs.Gelf.Additional
import LogIntake.Proofs.Gelf.Containers
import LogIntake.Proofs.Gelf.EntryOrder
import LogIntake.Proofs.Gelf.Record
import LogIntake.Proofs.Gelf.RoundTrip
import LogIntake.Proofs.Gelf.Mandatory
import LogIntake.Proofs.Gelf.Codec
import LogIntake.Proofs.Gelf.Range
import LogIntake.Proofs.Binary64.Reading
import LogIntake.Proofs.Gelf.Numerals
import LogIntake.Proofs.Gelf.Integers
import LogIntake.Proofs.Gelf.Timestamp
import LogIntake.Proofs.Gelf.Truncated
import LogIntake.Proofs.Gelf.Losses
import LogIntake.Proofs.Session
import LogIntake.Proofs.Gelf.Notices
import LogIntake.Proofs.Configuration
import LogIntake.Proofs.Schema
import LogIntake.Proofs.Registry
import LogIntake.Proofs.Gelf.Building
import LogIntake.Proofs.Gelf.Source
import LogIntake.Proofs.Charset.Encoding
