import Autocomplete.Duration

/-!
The estimate of how long servers take to answer: the mean of the first samples, and from then on an
exponential moving average that starts at that mean. The recurrence is stated over any numbers; the
sessions use floating point milliseconds.
-/
namespace Autocomplete

/-- A running average of `count` samples, where `count` stays at `window` once it is reached. -/
structure Average (α : Type) where
  count : Nat
  value : α

namespace Average
variable {α : Type} [NatCast α] [Add α] [Sub α] [Mul α] [Div α]

/-- The number of samples of which the mean is taken. -/
def window : Nat := 10

def empty : Average α := ⟨0, ((0 : Nat) : α)⟩

/-- The weight of a new sample after the first `window` ones. -/
def weight : α := ((2 : Nat) : α) / ((window + 1 : Nat) : α)

def record (average : Average α) (sample : α) : Average α :=
  if average.count < window then
    let count := average.count + 1
    ⟨count, average.value + (sample - average.value) / (count : α)⟩
  else
    { average with
      value := weight * sample + (((1 : Nat) : α) - weight) * average.value }

def ofSamples (samples : List α) : Average α := samples.foldl record empty

end Average

/-- The average answer time in milliseconds. -/
abbrev Latency := Average Float

namespace Latency

instance : NatCast Float := ⟨Float.ofNat⟩

def empty : Latency := Average.empty

instance : Inhabited Latency := ⟨empty⟩

def record (latency : Latency) (roundTrip : Duration) : Latency :=
  Average.record latency (roundTrip.toSeconds * 1000.0)

/-- There is an estimate once there is a sample. -/
def estimate (latency : Latency) : Option Duration :=
  if latency.count = 0 then none
  else
    let ms := if latency.value < 0 then 0 else latency.value
    some (Duration.ofSeconds (ms / 1000.0))

end Latency
end Autocomplete
