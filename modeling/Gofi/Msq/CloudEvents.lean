import Gofi.Msq.Codec

/-! A message in CloudEvents binary mode is read back as it was written: the
attributes and the message's own headers share one table, and no header is
taken for another. -/

namespace Gofi.Msq

open Gofi.Go

def isUUID (text : Str) : Bool :=
  text.length = 36 && (List.range 36).all fun place =>
    let byte := text.getD place 0
    if place ∈ [8, 13, 18, 23] then byte = 45 else (48 ≤ byte ∧ byte ≤ 57) ∨ (97 ≤ byte ∧ byte ≤ 102)

/-- `uuid.Parse` reads back what `UUID.String` writes. -/
def Uuid.ReadsBack (uuid : Uuid) : Prop := ∀ text, isUUID text = true → uuid.parse text = some text

/-- RFC 3339 has years of four digits. -/
def FourDigitYear (t : Time) : Prop := 0 ≤ t.year ∧ t.year ≤ 9999

instance (t : Time) : Decidable (FourDigitYear t) := inferInstanceAs (Decidable (_ ∧ _))

namespace Binding

variable (b : Binding) (uuid : Uuid)

def ownNames : List Str := attributes.map b.header ++ if b.contentType ≠ [] then [b.contentType] else []

structure Regular : Prop where
  apart : ¬ b.mark <+: b.contentType

def bindings : List Binding := [kafkaBinding, amqpBinding, natsBinding]

theorem regular_of_mem (member : b ∈ bindings) : b.Regular := by
  simp only [bindings, List.mem_cons, List.not_mem_nil, or_false] at member
  rcases member with rfl | rfl | rfl
  all_goals exact ⟨by decide⟩

variable {b}

theorem header_eq {left right : String} : b.header left = b.header right ↔ ascii left = ascii right := by
  simp [header]

theorem Regular.header_ne_contentType (regular : b.Regular) (name : String) : b.header name ≠ b.contentType :=
  fun same => regular.apart (same ▸ List.prefix_append ..)

private theorem update_if (condition : Prop) [Decidable condition] (headers : Headers) (key name : Str)
    (value : Option Str) :
    (if condition then Function.update headers key value else headers) name =
      if condition ∧ name = key then value else headers name := by
  by_cases met : condition <;> simp [met, Function.update_apply]

private theorem update_unless (condition : Prop) [Decidable condition] (headers : Headers) (key name : Str)
    (value : Option Str) : (if condition then headers else Function.update headers key value) name =
      if ¬ condition ∧ name = key then value else headers name := by
  by_cases met : condition <;> simp [met, Function.update_apply]

theorem encodeHeaders_apply (m : Message) (name : Str) : b.encodeHeaders m name =
    if (b.keyInHeaders ∧ m.key ≠ []) ∧ name = b.header "partitionkey" then some m.key
    else if b.contentType ≠ [] ∧ name = b.contentType then some contentTypeJSON
    else if ¬ m.timestamp.isZero ∧ name = b.header "time" then some (Rfc3339.format m.timestamp none)
    else if name = b.header "source" then some (if m.source ≠ [] then m.source else ascii "/topics/" ++ m.topic)
    else if name = b.header "type" then some (if m.type ≠ [] then m.type else defaultEventType)
    else if name = b.header "id" then some m.id else if name = b.header "specversion" then some (ascii "1.0")
    else m.headers name := by
  unfold encodeHeaders
  simp only [update_if, update_unless, Function.update_apply]

section Headers

variable (regular : b.Regular) (m : Message)
include regular

private theorem encodeHeaders_specversion : b.encodeHeaders m (b.header "specversion") = some (ascii "1.0") := by
  have other := regular.header_ne_contentType "specversion"
  have apart : ∀ name ∈ ["id", "type", "source", "time", "partitionkey"], ascii "specversion" ≠ ascii name := by decide
  simp [encodeHeaders_apply, header_eq, apart, other]

private theorem encodeHeaders_id : b.encodeHeaders m (b.header "id") = some m.id := by
  have other := regular.header_ne_contentType "id"
  have apart : ∀ name ∈ ["type", "source", "time", "partitionkey"], ascii "id" ≠ ascii name := by decide
  simp [encodeHeaders_apply, header_eq, apart, other]

private theorem encodeHeaders_type : b.encodeHeaders m (b.header "type") =
    some (if m.type ≠ [] then m.type else defaultEventType) := by
  have other := regular.header_ne_contentType "type"
  have apart : ∀ name ∈ ["source", "time", "partitionkey"], ascii "type" ≠ ascii name := by decide
  simp [encodeHeaders_apply, header_eq, apart, other]

private theorem encodeHeaders_source : b.encodeHeaders m (b.header "source") =
    some (if m.source ≠ [] then m.source else ascii "/topics/" ++ m.topic) := by
  have other := regular.header_ne_contentType "source"
  have apart : ∀ name ∈ ["time", "partitionkey"], ascii "source" ≠ ascii name := by decide
  simp [encodeHeaders_apply, header_eq, apart, other]

private theorem encodeHeaders_time : b.encodeHeaders m (b.header "time") =
    if m.timestamp.isZero then m.headers (b.header "time") else some (Rfc3339.format m.timestamp none) := by
  have other := regular.header_ne_contentType "time"
  have apart : ∀ name ∈ ["partitionkey", "source", "type", "id", "specversion"], ascii "time" ≠ ascii name := by decide
  by_cases zero : m.timestamp.isZero <;> simp [encodeHeaders_apply, header_eq, apart, other, zero]

private theorem encodeHeaders_partitionkey : b.encodeHeaders m (b.header "partitionkey") =
    if b.keyInHeaders ∧ m.key ≠ [] then some m.key else m.headers (b.header "partitionkey") := by
  have other := regular.header_ne_contentType "partitionkey"
  have apart : ∀ name ∈ ["time", "source", "type", "id", "specversion"], ascii "partitionkey" ≠ ascii name := by decide
  by_cases keyed : b.keyInHeaders ∧ m.key ≠ [] <;> simp [encodeHeaders_apply, header_eq, apart, other, keyed]

end Headers

def Free (b : Binding) (m : Message) : Prop := ∀ name ∈ b.ownNames, m.headers name = none

theorem Free.attribute (free : b.Free m) (name : String) (known : name ∈ attributes) :
    m.headers (b.header name) = none :=
  free _ (List.mem_append_left _ (List.mem_map_of_mem known))

private theorem decodeHeaders_encodeHeaders (regular : b.Regular) (free : b.Free m) :
    b.decodeHeaders (b.encodeHeaders m) = m.headers := by
  funext name
  unfold decodeHeaders
  split
  · rename_i known
    rcases known with known | ⟨typed, rfl, _⟩
    · exact (free name (List.mem_append_left _ known)).symm
    · exact (free _ (List.mem_append_right _ (by simp [typed]))).symm
  · rename_i unknown
    simp only [attributes, List.map_cons, List.map_nil, List.mem_cons, List.not_mem_nil, or_false, not_or,
      not_and, not_not] at unknown
    obtain ⟨⟨id, type, source, time, partitionkey, specversion, _⟩, contentType⟩ := unknown
    have typed : ¬ (b.contentType ≠ [] ∧ name = b.contentType) := by
      rintro ⟨set, rfl⟩
      exact regular.apart (contentType set rfl)
    simp [encodeHeaders_apply, id, type, source, time, partitionkey, specversion, typed]

def received (b : Binding) (uuid : Uuid) (m : Message) : Message :=
  b.decode uuid (b.encode m).1 (b.encode m).2

def eventType (m : Message) : Str := if m.type = defaultEventType then [] else m.type

structure RoundTrips (b : Binding) (uuid : Uuid) (m : Message) : Prop where
  binary : b.isBinary (b.encode m).2 = true
  id : (b.received uuid m).id = m.id
  value : (b.received uuid m).value = m.value
  timestamp : (b.received uuid m).timestamp = m.timestamp
  headers : (b.received uuid m).headers = m.headers
  key : b.keyInHeaders = true → (b.received uuid m).key = m.key
  type : (b.received uuid m).type = eventType m
  source : (b.received uuid m).source = if m.source ≠ [] then m.source else ascii "/topics/" ++ m.topic

private theorem received_type (regular : b.Regular) (m : Message) : (b.received uuid m).type = eventType m := by
  simp only [received, decode, encode, encodeHeaders_type regular, Option.getD_some, eventType]
  by_cases none_ : m.type = []
  all_goals simp [none_]

theorem received_timestamp (regular : b.Regular) (free : b.Free m) : (b.received uuid m).timestamp =
    if m.timestamp.isZero then 0 else (Rfc3339.parse (Rfc3339.format m.timestamp none)).getD 0 := by
  simp only [received, decode, encode, encodeHeaders_time regular, free.attribute "time" (by decide)]
  split <;> rfl

private theorem received_key (regular : b.Regular) (free : b.Free m) (keyed : b.keyInHeaders = true) :
    (b.received uuid m).key = m.key := by
  simp only [received, decode, encode, encodeHeaders_partitionkey regular,
    free.attribute "partitionkey" (by decide), keyed, true_and]
  by_cases none_ : m.key = [] <;> simp [none_]

/-- A message with a UUID and a time whose year in UTC has four digits (or the
zero time), none of whose own headers has a name of the binding, is read back as
it was written, for each of the bindings. -/
theorem cloudEvents_round_trip (uuid : Uuid) (readsBack : uuid.ReadsBack) (b : Binding) (known : b ∈ bindings)
    (m : Message) (identified : isUUID m.id = true)
    (stamped : m.timestamp.isZero = true ∨ FourDigitYear m.timestamp) (free : b.Free m) : b.RoundTrips uuid m := by
  have regular := b.regular_of_mem known
  constructor
  · simp [isBinary, encode, encodeHeaders_specversion regular]
  · simp [received, decode, encode, encodeHeaders_id regular, Uuid.parseID, readsBack _ identified]
  · rfl
  · rw [received_timestamp uuid regular free]
    split
    · rename_i zero
      simp only [Time.isZero, decide_eq_true_eq] at zero
      exact zero.symm
    · rename_i set
      obtain ⟨lower, upper⟩ := stamped.resolve_left set
      rw [Rfc3339.parse_format lower upper, Option.getD_some]
  · exact decodeHeaders_encodeHeaders regular free
  · exact received_key uuid regular free
  · exact received_type uuid regular m
  · simp [received, decode, encode, encodeHeaders_source regular]

namespace Sample

def uuids : Uuid where
  parse text := if isUUID text then some text else none
  newSHA1 _ := nilID

theorem uuids_readsBack : uuids.ReadsBack := fun _ known => if_pos known

def order (at_ : Time) : Message where
  id := ascii "5b0a3f3e-3c55-4b1e-9f6e-6f1d2a8c9e10"
  topic := ascii "orders"
  type := []
  source := []
  key := ascii "k1"
  value := ascii "1"
  timestamp := at_
  headers name := if name = ascii "tenant" then some (ascii "a") else none
  deliveryCount := 0

theorem order_free (at_ : Time) : amqpBinding.Free (order at_) := by
  intro name owned
  have other : ∀ name ∈ amqpBinding.ownNames, name ≠ ascii "tenant" := by decide
  simp [order, other name owned]

/-- 9999-12-31T23:30:00-01:00. -/
def newYear : Time := Time.ofUnix 253402302600

end Sample

theorem sample_order_round_trips : FourDigitYear Time.unixEpoch ∧
    amqpBinding.RoundTrips Sample.uuids (Sample.order Time.unixEpoch) :=
  ⟨by decide, cloudEvents_round_trip Sample.uuids Sample.uuids_readsBack amqpBinding (by simp [bindings])
    (Sample.order Time.unixEpoch) (by decide) (.inr (by decide)) (Sample.order_free _)⟩

/-- The last hour of the year 9999 in a western time zone is read back as the zero time. -/
theorem last_hour_of_9999_is_lost : Sample.uuids.ReadsBack ∧ isUUID (Sample.order Sample.newYear).id = true ∧
    ((Sample.order Sample.newYear).timestamp - Time.hour).year = 9999 ∧
    amqpBinding.Free (Sample.order Sample.newYear) ∧
    (amqpBinding.received Sample.uuids (Sample.order Sample.newYear)).timestamp = 0 ∧
    ¬ amqpBinding.RoundTrips Sample.uuids (Sample.order Sample.newYear) := by
  have free := Sample.order_free Sample.newYear
  have written : Rfc3339.format Sample.newYear none = ascii "10000-01-01T00:30:00Z" := by decide
  have unread : Rfc3339.parse (ascii "10000-01-01T00:30:00Z") = none := by decide
  have lost : (amqpBinding.received Sample.uuids (Sample.order Sample.newYear)).timestamp = 0 := by
    rw [received_timestamp Sample.uuids (amqpBinding.regular_of_mem (by simp [bindings])) free, Sample.order, written,
      unread]
    rfl
  refine ⟨Sample.uuids_readsBack, by decide, by decide, free, lost, fun kept => ?_⟩
  have same := kept.timestamp
  exact absurd same (by decide)

end Binding

end Gofi.Msq
