import Gofi.Msq.Nats
import Gofi.Msq.NatsProducer

/-! `provider/nats`: when a message that was sent without an error is stored. -/

namespace Gofi.Msq.Nats

open Gofi.Go

namespace Server

/-- Some stream has stored the message. -/
def Holds (s : Server) (nm : Msg) : Prop := ∃ stream ∈ s.streams, ∃ time, (nm, time) ∈ stream.stored

/-- The stream of the subject has seen the id within its window. -/
def Seen (s : Server) (subject : Str) (id : Option Str) : Prop :=
  ∃ stream, s.capturing subject = some stream ∧ stream.seen s.now id = true

/-- Streams only gain messages, and no other one captures a subject. -/
structure Grows (s after : Server) : Prop where
  now : after.now = s.now
  holds : ∀ nm, s.Holds nm → after.Holds nm
  captures : ∀ subject stream, s.capturing subject = some stream → ∃ larger, after.capturing subject = some larger ∧
    larger.window = stream.window ∧ ∀ entry ∈ stream.stored, entry ∈ larger.stored

theorem Grows.refl (s : Server) : Grows s s :=
  ⟨rfl, fun _ => id, fun _ stream found => ⟨stream, found, rfl, fun _ => id⟩⟩

theorem Grows.trans (first : Grows s middle) (second : Grows middle after) : Grows s after where
  now := second.now.trans first.now
  holds nm held := second.holds nm (first.holds nm held)
  captures subject stream found := by
    obtain ⟨larger, here, window, more⟩ := first.captures subject stream found
    obtain ⟨largest, there, same, most⟩ := second.captures subject larger here
    exact ⟨largest, there, same.trans window, fun entry present => most entry (more entry present)⟩

theorem Grows.seen {id : Option Str} (grows : Grows s after) (seen : s.Seen subject id) : after.Seen subject id := by
  obtain ⟨stream, found, present⟩ := seen
  obtain ⟨larger, here, window, more⟩ := grows.captures subject stream found
  refine ⟨larger, here, ?_⟩
  simp only [Stream.seen, Bool.and_eq_true, List.any_eq_true] at present ⊢
  obtain ⟨some_, entry, stored, recent⟩ := present
  exact ⟨some_, entry, more entry stored, by rwa [grows.now, window]⟩

theorem mem_store {x nm : Msg} {now : Time} {streams : List Stream} :
    (∃ stream ∈ store nm now streams, ∃ time, (x, time) ∈ stream.stored) ↔
      (∃ stream ∈ streams, ∃ time, (x, time) ∈ stream.stored) ∨
        x = nm ∧ ∃ stream ∈ streams, stream.captures nm.subject = true := by
  induction streams with
  | nil => simp [store]
  | cons stream rest ih =>
    rw [store]
    split <;> rename_i here <;> simp only [List.mem_cons, exists_eq_or_imp, here, true_or, and_true]
    · simp only [Prod.mk.injEq, exists_or, exists_and_left, exists_eq, and_true]
      grind
    · rw [ih]
      grind

private theorem find_store (nm : Msg) (now : Time) {streams : List Stream}
    (found : streams.find? (·.captures subject) = some stream) : ∃ larger,
    (store nm now streams).find? (·.captures subject) = some larger ∧ larger.window = stream.window ∧
      ∀ entry ∈ stream.stored, entry ∈ larger.stored := by
  induction streams with
  | nil => cases found
  | cons first rest ih =>
    rw [store]
    rw [List.find?_cons] at found
    cases here : first.captures subject with
    | true =>
      simp only [here, Option.some.injEq] at found
      subst found
      split
      · exact ⟨_, List.find?_cons_of_pos here, rfl, fun entry => List.mem_cons_of_mem _⟩
      · exact ⟨_, List.find?_cons_of_pos here, rfl, fun entry => id⟩
    | false =>
      simp only [here] at found
      split
      · refine ⟨stream, ?_, rfl, fun entry => id⟩
        rw [List.find?_cons_of_neg (by exact Bool.eq_false_iff.mp here), found]
      · obtain ⟨larger, later⟩ := ih found
        exact ⟨larger, by rwa [List.find?_cons, here]⟩

private theorem store_grows (s : Server) (nm : Msg) : Grows s { s with streams := store nm s.now s.streams } :=
  ⟨rfl, fun _ held => mem_store.mpr (.inl held), fun _ _ found => find_store nm s.now found⟩

theorem publish_effect (s : Server) (fate : PublishFate) (nm : Msg) : Grows s (s.publish fate nm).2 ∧
    (∀ x, (s.publish fate nm).2.Holds x → s.Holds x ∨ x = nm ∧ ¬ s.Seen nm.subject nm.id) ∧
    ((s.publish fate nm).1 = .acked → (s.publish fate nm).2.Holds nm ∨ s.Seen nm.subject nm.id) := by
  cases fate with
  | unsent err | refused err => exact ⟨.refl s, fun _ => .inl, nofun⟩
  | arrives lost =>
    simp only [publish]
    cases found : s.capturing nm.subject with
    | none => exact ⟨.refl s, fun _ => .inl, nofun⟩
    | some stream =>
      by_cases seen : stream.seen s.now nm.id = true
      · cases lost <;> simp only [seen, if_true] <;>
          exact ⟨.refl s, fun _ => .inl, fun _ => .inr ⟨stream, found, seen⟩⟩
      · have unseen : ¬ s.Seen nm.subject nm.id := by
          rintro ⟨other, same, here⟩
          rw [found] at same
          cases same
          exact seen here
        have taken : ∃ stream ∈ s.streams, stream.captures nm.subject = true :=
          ⟨stream, List.mem_of_find?_eq_some found, List.find?_some (p := (Stream.captures · nm.subject)) found⟩
        cases lost <;> simp only [seen] <;>
          exact ⟨store_grows s nm, fun x held => (mem_store.mp held).imp_right (⟨·.1, unseen⟩),
            fun _ => .inl (mem_store.mpr (.inr ⟨rfl, taken⟩))⟩

theorem createStream_effect (s : Server) (refusal : Option Str) (name subject : Str) (maxAge : Duration) :
    Grows s (s.createStream refusal name subject maxAge).2 ∧
    (∀ x, (s.createStream refusal name subject maxAge).2.Holds x → s.Holds x) ∧
    ∀ id, (s.createStream refusal name subject maxAge).2.Seen subject id → s.Seen subject id := by
  unfold createStream
  split
  · exact ⟨.refl s, fun _ => id, fun _ => id⟩
  · cases refusal with
    | some err => exact ⟨.refl s, fun _ => id, fun _ => id⟩
    | none =>
      refine ⟨⟨rfl, fun nm ⟨stream, present, stored⟩ => ⟨stream, List.mem_append_left _ present, stored⟩, ?_⟩, ?_, ?_⟩
      · intro subject stream found
        exact ⟨stream, by rw [capturing, List.find?_append, ← capturing, found, Option.some_or], rfl, fun _ => id⟩
      · rintro x ⟨stream, present, time, stored⟩
        rcases List.mem_append.mp present with old | new
        · exact ⟨stream, old, time, stored⟩
        · cases List.mem_singleton.mp new
          cases stored
      · rintro id ⟨stream, found, seen⟩
        rw [capturing, List.find?_append, Option.or_eq_some_iff] at found
        rcases found with old | ⟨_, new⟩
        · exact ⟨stream, old, seen⟩
        · cases List.mem_singleton.mp (List.mem_of_find?_eq_some new)
          simp [Stream.seen] at seen

end Server

theorem stream_effect (b : Broker) (fate : Fate) (subject : Str) (s : Server) :
    Server.Grows s (b.stream fate subject s).2.2 ∧ (∀ x, (b.stream fate subject s).2.2.Holds x → s.Holds x) ∧
    ∀ id, (b.stream fate subject s).2.2.Seen subject id → s.Seen subject id := by
  have created := s.createStream_effect fate.create (streamName subject) subject b.cfg.maxAge
  rw [Broker.stream]
  repeat' split
  all_goals first | exact ⟨.refl s, fun _ => id, fun _ => id⟩ | simp_all

section

/-- The message is stored as it was sent. -/
def Stored (s : Server) (m : Message) : Prop := s.Holds (wire m)

/-- A message of its id was stored under its subject. -/
def Already (s : Server) (m : Message) : Prop := ∃ nm, s.Holds nm ∧ nm.subject = m.topic ∧ nm.id = some m.id

/-- Its id was seen under other subjects only. -/
def Shadowed (s : Server) (m : Message) : Prop := s.Seen m.topic (some m.id) ∧ ¬ Already s m

theorem wire_id (m : Message) : (wire m).id = some m.id := by
  simp only [Msg.id, wire, Function.update_self]

theorem Stored.already (stored : Stored s m) : Already s m := ⟨wire m, stored, rfl, wire_id m⟩

/-- What a send adds to the streams, and what an answer means. -/
structure Sends (s after : Server) (m : Message) (acked : Prop) : Prop where
  grows : Server.Grows s after
  holds : ∀ x, after.Holds x → s.Holds x ∨ x = wire m ∧ ¬ s.Seen m.topic (some m.id)
  stored : acked → Stored after m ∨ s.Seen m.topic (some m.id)

private theorem msg_fails (failed : msg b fate m s = (.error err, b', after)) : Sends s after m False := by
  have effect := stream_effect b fate m.topic s
  simp only [msg] at failed
  split at failed
  · cases failed
    exact ⟨.refl s, fun _ => .inl, False.elim⟩
  · split at failed <;> cases failed
    rename_i looked
    rw [looked] at effect
    exact ⟨effect.1, fun x held => .inl (effect.2.1 x held), False.elim⟩

theorem msg_publishes (ready : msg b fate m s = (.ok nm, b', middle)) :
    Sends s (middle.publish fate.publish nm).2 m ((middle.publish fate.publish nm).1 = .acked) := by
  have effect := stream_effect b fate m.topic s
  simp only [msg] at ready
  split at ready
  · cases ready
  · split at ready <;> cases ready
    rename_i looked
    rw [looked] at effect
    obtain ⟨grows, held, seen⟩ := effect
    obtain ⟨published, adds, acked⟩ := middle.publish_effect fate.publish (wire m)
    refine ⟨grows.trans published, fun x later => ?_, fun success => (acked success).imp_right (seen _)⟩
    exact (adds x later).imp (held x) fun ⟨same, unseen⟩ => ⟨same, fun before => unseen (grows.seen before)⟩

theorem sendMessage_sends (b : Broker) (fate : Fate) (m : Message) (s : Server) :
    Sends s (sendMessage b fate m s).2.2 m ((sendMessage b fate m s).1 = none) := by
  unfold sendMessage
  split
  · rename_i failed
    obtain ⟨grows, holds, _⟩ := msg_fails failed
    exact ⟨grows, holds, nofun⟩
  · rename_i nm b' middle ready
    obtain ⟨grows, holds, stored⟩ := msg_publishes ready
    split <;> rename_i published <;> rw [published] at grows holds stored
    · exact ⟨grows, holds, fun _ => stored rfl⟩
    · exact ⟨grows, holds, nofun⟩
    · exact ⟨grows, holds, nofun⟩

/-- What was stored or shadowed stays so. -/
structure Onward (s last : Server) : Prop where
  grows : Server.Grows s last
  shadowed : ∀ m, Shadowed s m → Shadowed last m

theorem Onward.refl (s : Server) : Onward s s := ⟨.refl s, fun _ => id⟩

theorem Onward.trans (first : Onward s middle) (second : Onward middle last) : Onward s last :=
  ⟨first.grows.trans second.grows, fun m shadowed => second.shadowed m (first.shadowed m shadowed)⟩

theorem Sends.onward (sends : Sends s after other acked) : Onward s after := by
  refine ⟨sends.grows, fun m shadowed => ⟨sends.grows.seen shadowed.1, ?_⟩⟩
  rintro ⟨nm, held, subject, same⟩
  rcases sends.holds nm held with before | ⟨rfl, unseen⟩
  · exact shadowed.2 ⟨nm, before, subject, same⟩
  · -- a message of the same id and subject would have been dropped itself
    refine unseen ?_
    have topic : other.topic = m.topic := subject
    rw [wire_id] at same
    rw [topic, same]
    exact shadowed.1

theorem Sends.kept_iff (sends : Sends s after m acked) (success : acked) (onward : Onward after last) :
    Stored last m ∨ Already s m ↔ ¬ Shadowed s m := by
  constructor
  · rintro (stored | already) shadowed
    · exact (sends.onward.trans onward).shadowed m shadowed |>.2 stored.already
    · exact shadowed.2 already
  · intro clear
    refine (sends.stored success).imp (onward.grows.holds _) fun seen => ?_
    exact not_not.mp fun fresh => clear ⟨seen, fresh⟩

/-- Each message of a batch with the streams at its turn. -/
def turns : List (Message × Fate) → Broker → Server → List (Message × Server)
  | [], _, _ => []
  | (m, fate) :: rest, b, s =>
    let (_, b', after) := sendMessage b fate m s
    (m, s) :: turns rest b' after

private theorem batch_keeps_iff
    (sent : sendMessagesBatch ended batch errs b s = ([], b', last)) : errs = [] ∧ Onward s last ∧
    ∀ turn ∈ turns batch b s, Stored last turn.1 ∨ Already turn.2 turn.1 ↔ ¬ Shadowed turn.2 turn.1 := by
  induction batch generalizing errs b s with
  | nil =>
    simp only [sendMessagesBatch] at sent
    split at sent <;> cases sent
    exact ⟨rfl, .refl _, by simp [turns]⟩
  | cons first rest ih =>
    obtain ⟨m, fate⟩ := first
    simp only [sendMessagesBatch] at sent
    split at sent
    · cases sent
    · rename_i nm b₁ middle ready
      have sends := msg_publishes ready
      split at sent
      · cases sent
      · rename_i after published
        rw [published] at sends
        obtain ⟨clean, onward, kept⟩ := ih sent
        have same : sendMessage b fate m s = (none, b₁, after) := by
          simp only [sendMessage, ready, published]
        refine ⟨clean, sends.onward.trans onward, ?_⟩
        simp only [turns, same, List.forall_mem_cons]
        exact ⟨sends.kept_iff rfl onward, kept⟩
      · obtain ⟨clean, _⟩ := ih sent
        simp at clean

/-- From any state of the streams: a message that was sent without an error, alone,
in a batch or as a dead letter, is stored under its subject with its value and
headers, or one of its id was stored there before, exactly if it was not shadowed:
if the stream that captures the subject had not seen the id, within its duplicate
window, under other subjects only. -/
theorem successful_sends_are_stored_iff (b : Broker) (s : Server) :
    (∀ fate m b' last, sendMessage b fate m s = (none, b', last) →
      (Stored last m ∨ Already s m ↔ ¬ Shadowed s m)) ∧
    (∀ ended batch b' last, sendMessagesBatch ended batch [] b s = ([], b', last) →
      ∀ turn ∈ turns batch b s,
        (Stored last turn.1 ∨ Already turn.2 turn.1 ↔ ¬ Shadowed turn.2 turn.1)) ∧
    ∀ cfg surroundings fate m err attempts,
      (∀ copy, surroundings.sendMessage copy = none ↔ (sendMessage b fate copy s).1 = none) →
      (settleNack cfg surroundings m err attempts).1 = .ack →
      let copy := deadLetter cfg m err attempts
      (Stored (sendMessage b fate copy s).2.2 copy ∨ Already s copy ↔ ¬ Shadowed s copy) := by
  refine ⟨fun fate m b' last sent => ?_, fun ended batch b' last sent => (batch_keeps_iff sent).2.2, ?_⟩
  · have sends := sendMessage_sends b fate m s
    rw [sent] at sends
    exact sends.kept_iff rfl (.refl last)
  · intro cfg surroundings fate m err attempts same settled
    refine (sendMessage_sends b fate _ s).kept_iff ?_ (.refl _)
    refine (same _).mp ?_
    unfold settleNack at settled
    repeat' split at settled
    all_goals first | assumption | cases settled

end

namespace Sample

def operated : Server := ⟨0, [⟨ascii "ORDERS", [ascii "orders.>"], 2 * Time.minute, []⟩]⟩

def broker : Broker := ⟨⟨0⟩, []⟩

def arrives : Fate := ⟨none, none, .arrives none⟩

def order : Message := ⟨ascii "5", ascii "orders.created", [], [], [], ascii "1", 0, fun _ => none, 0⟩

def routed : ConsumeConfig := ⟨ascii "orders.created", 0, ascii "orders.created.dlq", 10⟩

def nacking (b : Broker) (s : Server) : Surroundings :=
  { failing.surroundings with sendMessage := fun m => (sendMessage b arrives m s).1.map fun _ => [] }

def separate : ConsumeConfig := { routed with deadLetterTopic := ascii "failed" }

end Sample

/-- A new order is stored, alone and in a batch, and so is its dead letter under a
subject of another stream. -/
theorem fresh_order_is_stored : ∃ b s,
    sendMessage Sample.broker Sample.arrives Sample.order Sample.operated = (none, b, s) ∧ Stored s Sample.order ∧
    sendMessagesBatch false [(Sample.order, Sample.arrives)] [] Sample.broker Sample.operated = ([], b, s) ∧
    (settleNack Sample.separate (Sample.nacking b s) Sample.order none 1).1 = .ack ∧
    Stored (sendMessage b Sample.arrives (deadLetter Sample.separate Sample.order none 1) s).2.2
      (deadLetter Sample.separate Sample.order none 1) := by
  have unheld : ¬ Already Sample.operated Sample.order := by
    rintro ⟨nm, ⟨stream, present, time, stored⟩, _⟩
    cases List.mem_singleton.mp present
    cases stored
  have unseen : ¬ Shadowed Sample.operated Sample.order := by
    rintro ⟨⟨stream, found, seen⟩, _⟩
    cases found
    cases seen
  have sent : ∃ b s, sendMessage Sample.broker Sample.arrives Sample.order Sample.operated = (none, b, s) ∧
      sendMessagesBatch false [(Sample.order, Sample.arrives)] [] Sample.broker Sample.operated = ([], b, s) ∧
      (settleNack Sample.separate (Sample.nacking b s) Sample.order none 1).1 = .ack ∧
      s.capturing (ascii "failed") = none ∧ ∀ nm, s.Holds nm → nm.subject = ascii "orders.created" := by
    refine ⟨_, _, rfl, rfl, rfl, rfl, ?_⟩
    rintro nm ⟨stream, present, time, stored⟩
    cases List.mem_singleton.mp present
    cases List.mem_singleton.mp stored
    rfl
  obtain ⟨b, s, single, batch, acked, none, others⟩ := sent
  have copied :=
    (successful_sends_are_stored_iff b s).2.2 Sample.separate (Sample.nacking b s) Sample.arrives Sample.order
    Option.none 1 (fun copy => by simp [Sample.nacking]) acked
  refine ⟨b, s, single, ?_, batch, acked, (copied.mpr ?_).resolve_right ?_⟩
  · exact (((successful_sends_are_stored_iff _ _).1 _ _ _ _ single).mpr unseen).resolve_right unheld
  · rintro ⟨⟨stream, found, _⟩, _⟩
    cases none.symm.trans found
  · rintro ⟨nm, held, subject, _⟩
    exact absurd ((others nm held).symm.trans subject) (by decide)

/-- The dead letter of a message that the same stream has just stored is
acknowledged, the message is acked, and the stream holds no copy. -/
theorem dead_letter_is_swallowed : ∃ b s,
    sendMessage Sample.broker Sample.arrives Sample.order Sample.operated = (none, b, s) ∧
    (settleNack Sample.routed (Sample.nacking b s) Sample.order none 1).1 = .ack ∧
    (sendMessage b Sample.arrives (deadLetter Sample.routed Sample.order none 1) s).2.2.streams.map
      (·.stored.map (·.1.subject)) = [[ascii "orders.created"]] :=
  ⟨_, _, rfl, rfl, rfl⟩

end Gofi.Msq.Nats
