import Gofi.Go.Rfc3339
import Gofi.Msq.Types
import Mathlib.Logic.Function.Basic

/-! `types/codec.go`: CloudEvents binary mode. The body is the value, and the
attributes travel in the transport's own headers. -/

namespace Gofi.Msq

open Gofi.Go

/-- The texts of the identifiers that `uuid.Parse` and `uuid.NewSHA1` give for a text. -/
structure Uuid where
  parse : Str → Option Str
  newSHA1 : Str → Str

/-- A text that is no UUID maps to a UUID of its own. -/
def Uuid.parseID (uuid : Uuid) (text : Str) : Str := (uuid.parse text).getD (uuid.newSHA1 text)

def nilID : Str := ascii "00000000-0000-0000-0000-000000000000"

def defaultEventType : Str := ascii "gofi.message"
def contentTypeJSON : Str := ascii "application/json"

/-- `types.Binding`: the text before the names of the attributes, the header of the
content type, if there is one, and whether the key is written. -/
structure Binding where
  mark : Str
  contentType : Str
  keyInHeaders : Bool

def kafkaBinding : Binding := ⟨ascii "ce_", ascii "content-type", false⟩
def amqpBinding : Binding := ⟨ascii "cloudEvents_", [], true⟩
def natsBinding : Binding := ⟨ascii "ce-", ascii "content-type", true⟩

namespace Binding

variable (b : Binding)

def header (name : String) : Str := b.mark ++ ascii name

def encodeHeaders (m : Message) : Headers :=
  let headers := Function.update m.headers (b.header "specversion") (some (ascii "1.0"))
  let headers := Function.update headers (b.header "id") (some m.id)
  let headers := Function.update headers (b.header "type") (some (if m.type ≠ [] then m.type else defaultEventType))
  let headers := Function.update headers (b.header "source")
    (some (if m.source ≠ [] then m.source else ascii "/topics/" ++ m.topic))
  let headers := if m.timestamp.isZero then headers
    else Function.update headers (b.header "time") (some (Rfc3339.format m.timestamp none))
  let headers := if b.contentType ≠ [] then Function.update headers b.contentType (some contentTypeJSON) else headers
  if b.keyInHeaders ∧ m.key ≠ [] then Function.update headers (b.header "partitionkey") (some m.key) else headers

def encode (m : Message) : Str × Headers := (m.value, b.encodeHeaders m)

def isBinary (headers : Headers) : Bool := (headers (b.header "specversion")).isSome

def attributes : List String := ["id", "type", "source", "time", "partitionkey", "specversion", "datacontenttype"]

def decodeHeaders (headers : Headers) : Headers := fun name =>
  if name ∈ attributes.map b.header ∨ b.contentType ≠ [] ∧ name = b.contentType ∧ ¬ b.mark <+: name then none
  else headers name

def decode (uuid : Uuid) (body : Str) (headers : Headers) : Message where
  id := ((headers (b.header "id")).map uuid.parseID).getD nilID
  topic := []
  type :=
    let type := (headers (b.header "type")).getD []
    if type = defaultEventType then [] else type
  source := (headers (b.header "source")).getD []
  key := (headers (b.header "partitionkey")).getD []
  value := body
  timestamp := ((headers (b.header "time")).bind Rfc3339.parse).getD 0
  headers := b.decodeHeaders headers
  deliveryCount := 0

structure Plain (name : Str) : Prop where
  unmarked : ¬ b.mark <+: name
  other : name ≠ b.contentType

theorem header_ne (plain : b.Plain name) (known : String) : name ≠ b.header known := by
  rintro rfl
  exact plain.unmarked (List.prefix_append ..)

theorem encodeHeaders_plain (plain : b.Plain name) (m : Message) : b.encodeHeaders m name = m.headers name := by
  have other := b.header_ne plain
  unfold encodeHeaders
  simp only [apply_ite (fun headers : Headers => headers name), Function.update_of_ne (other _),
    Function.update_of_ne plain.other, ite_self]

theorem decodeHeaders_plain (plain : b.Plain name) (headers : Headers) :
    b.decodeHeaders headers name = headers name := by
  refine if_neg ?_
  rintro (known | ⟨_, same, _⟩)
  · obtain ⟨listed, _, same⟩ := List.mem_map.mp known
    exact b.header_ne plain listed same.symm
  · exact plain.other same

end Binding

end Gofi.Msq
