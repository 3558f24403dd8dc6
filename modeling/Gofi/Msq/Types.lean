import Gofi.Go.Text
import Gofi.Go.Time

/-! The message envelope, the results of a handler and the settings of a
consumer (`msq/types`). -/

namespace Gofi.Msq

open Gofi.Go

inductive Result where
  | ack
  | nack
  | ignore
  | reject
  deriving DecidableEq

abbrev Headers := Str → Option Str

structure Message where
  id : Str
  topic : Str
  type : Str
  source : Str
  key : Str
  value : Str
  timestamp : Time
  headers : Headers
  /-- How often the broker has delivered the message, this delivery included;
  zero when the broker does not count. -/
  deliveryCount : Int

structure ConsumeConfig where
  topic : Str
  maxRetries : Int
  deadLetterTopic : Str
  maxDeliveries : Int

namespace ConsumeConfig

def defaultMaxDeliveries : Int := 10

def deliveryLimit (c : ConsumeConfig) : Int :=
  if c.maxDeliveries < 0 then 0
  else if c.maxDeliveries = 0 ∧ c.deadLetterTopic = [] then 0
  else if c.maxDeliveries = 0 then defaultMaxDeliveries
  else c.maxDeliveries

def deliveryLimitReached (c : ConsumeConfig) (count : Int) : Bool :=
  c.deliveryLimit > 0 && count ≥ c.deliveryLimit

end ConsumeConfig

end Gofi.Msq
