import Bearer.Json.Decode
import Bearer.Time.Interval

/-!
What can be tuned about a broker: how far apart explicit refreshes are kept, when a failed fetch is
tried again, and how often a caller with a rejected credential looks for a newer one.
-/
namespace Bearer

/-- The range from which a number of polls is drawn, without its upper end. -/
structure PollJitter where
  min : UInt32
  max : UInt32
  deriving DecidableEq, Repr

namespace PollJitter

def successor (n : UInt32) : UInt32 :=
  if n = 0xFFFFFFFF then n else n + 1

/-- At least one poll, and a range that holds something unless the lower end is the largest word. -/
def create (min max : UInt32) : PollJitter :=
  let low := if min < 1 then 1 else min
  ⟨low, if max < successor low then successor low else max⟩

def normalized (jitter : PollJitter) : PollJitter :=
  create jitter.min jitter.max

/-- The range that a generator is asked for. There is none above the largest word, and nothing is
asked. -/
def asked? (jitter : PollJitter) : Option (UInt32 × UInt32) :=
  let n := jitter.normalized
  if n.max ≤ n.min then none else some (n.min, n.max)

/-- The number of polls of one caller. A generator draws from a range as its seed has it, or
fails. -/
def sample {Seed : Type} (draw : Seed → UInt32 → UInt32 → Option UInt32) (jitter : PollJitter)
    (seed : Seed) : Option UInt32 :=
  match jitter.asked? with
  | none => some jitter.normalized.min
  | some (low, high) => draw seed low high

/-- Whether a number of polls can be drawn. -/
def allows (jitter : PollJitter) (polls : Nat) : Bool :=
  let n := jitter.normalized
  if n.min < n.max then n.min.toNat ≤ polls && polls < n.max.toNat else polls = n.min.toNat

/-- The number that is drawn every time, where only one can be. -/
def constant? (jitter : PollJitter) : Option Nat :=
  let n := jitter.normalized
  if n.min < n.max && n.min.toNat + 1 < n.max.toNat then none else some n.min.toNat

def least (jitter : PollJitter) : Nat :=
  jitter.normalized.min.toNat

def default : PollJitter :=
  ⟨3, 10⟩

def toJson (jitter : PollJitter) : Json.Value :=
  .object [("min", .int jitter.min.toNat), ("max", .int jitter.max.toNat)]

def record : Json.Record Nat where
  fields := [("min", Json.Reader.natBelow (1 <<< 32)), ("max", Json.Reader.natBelow (1 <<< 32))]
  closed := false

def reader : Json.Reader PollJitter :=
  record.readAs fun entries => do
    return ⟨(← entries.lookup "min").toUInt32, (← entries.lookup "max").toUInt32⟩

def describe (jitter : PollJitter) : String :=
  "PollJitter \x7b min: " ++ toString jitter.min.toNat ++ ", max: " ++ toString jitter.max.toNat ++
    " \x7d"

end PollJitter

namespace Time.Interval

def toJson (i : Interval) : Json.Value :=
  .object [("secs", .int i.seconds), ("nanos", .int i.subsecond)]

def record : Json.Record Nat where
  fields := [("secs", Json.Reader.natBelow (1 <<< 64)), ("nanos", Json.Reader.natBelow (1 <<< 32))]
  closed := true

def reader : Json.Reader Interval :=
  record.readAs fun entries => do
    ofParts? (← entries.lookup "secs") (← entries.lookup "nanos")

end Time.Interval

structure Config where
  debounceWindow : Time.Interval
  fallbackInterval : Time.Interval
  pollInterval : Time.Interval
  pollJitter : PollJitter
  deriving DecidableEq

namespace Config

def default : Config where
  debounceWindow := .ofSeconds 5
  fallbackInterval := .ofSeconds 60
  pollInterval := .ofMillis 50
  pollJitter := .default

def withDebounceWindow (config : Config) (window : Time.Interval) : Config :=
  { config with debounceWindow := window }

/-- An interval below a second is raised to one second. -/
def withFallbackInterval (config : Config) (interval : Time.Interval) : Config :=
  { config with fallbackInterval := interval.max (.ofSeconds 1) }

def withPollInterval (config : Config) (interval : Time.Interval) : Config :=
  { config with pollInterval := interval }

def withPollJitter (config : Config) (min max : UInt32) : Config :=
  { config with pollJitter := .create min max }

def toJson (config : Config) : Json.Value :=
  .object
    [("debounce_window", config.debounceWindow.toJson),
      ("fallback_interval", config.fallbackInterval.toJson),
      ("poll_interval", config.pollInterval.toJson),
      ("poll_jitter", config.pollJitter.toJson)]

inductive Entry where
  | debounceWindow (i : Time.Interval)
  | fallbackInterval (i : Time.Interval)
  | pollInterval (i : Time.Interval)
  | pollJitter (j : PollJitter)

def record : Json.Record Entry where
  fields :=
    [("debounce_window", fun tree => .debounceWindow <$> Time.Interval.reader tree),
      ("fallback_interval", fun tree => .fallbackInterval <$> Time.Interval.reader tree),
      ("poll_interval", fun tree => .pollInterval <$> Time.Interval.reader tree),
      ("poll_jitter", fun tree => .pollJitter <$> PollJitter.reader tree)]
  closed := false

def set (config : Config) : Entry → Config
  | .debounceWindow i => { config with debounceWindow := i }
  | .fallbackInterval i => { config with fallbackInterval := i }
  | .pollInterval i => { config with pollInterval := i }
  | .pollJitter j => { config with pollJitter := j }

/-- A field that is missing has its default; values are taken as they are written. -/
def reader : Json.Reader Config :=
  record.readAs fun entries => some (entries.foldl (fun config entry => config.set entry.2) default)

def describe (config : Config) : String :=
  "BrokerConfig \x7b debounce_window: " ++ config.debounceWindow.text ++ ", fallback_interval: " ++
    config.fallbackInterval.text ++ ", poll_interval: " ++ config.pollInterval.text ++
    ", poll_jitter: " ++ config.pollJitter.describe ++ " \x7d"

end Config

end Bearer
