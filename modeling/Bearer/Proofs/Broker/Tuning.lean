import Mathlib
import Bearer.Config
import Bearer.Proofs.Json.Fields

/-!
How a configuration comes about: it has the defaults or is read from a document, and then one thing
after another is set. The fallback interval is raised where it is set, but not where a document tells
it, so a configuration falls back to nothing only by a document.
-/
namespace Bearer.Config

open Json (Tree)

/-- One use of a function that sets something. -/
inductive Setting where
  | debounceWindow (window : Time.Interval)
  | fallbackInterval (interval : Time.Interval)
  | pollInterval (interval : Time.Interval)
  | pollJitter (min max : UInt32)

def adjust (config : Config) : Setting → Config
  | .debounceWindow window => config.withDebounceWindow window
  | .fallbackInterval interval => config.withFallbackInterval interval
  | .pollInterval interval => config.withPollInterval interval
  | .pollJitter min max => config.withPollJitter min max

/-- What a configuration is before anything is set. -/
inductive Base where
  | standard
  | document (text : String)

namespace Base

def config? : Base → Option Config
  | .standard => some .default
  | .document text => (Json.decodeAll reader text).toOption

/-- The fallback interval that the tree of a document tells. -/
def told? (tree : Tree) : Option Time.Interval :=
  ((record.named tree).lookup "fallback_interval").bind fun inner =>
    (Time.Interval.reader inner).toOption

def fallback : Base → Time.Interval
  | .standard => Config.default.fallbackInterval
  | .document text =>
    (told? (Tree.scan (Text.utf8 text)).1).getD Config.default.fallbackInterval

end Base

/-- The configuration that comes of a base by settings, in their order. -/
def obtain? (base : Base) (settings : List Setting) : Option Config :=
  base.config?.map fun config => settings.foldl adjust config

section Document

/-- The field that an entry is of. -/
def Entry.name : Entry → String
  | .debounceWindow _ => "debounce_window"
  | .fallbackInterval _ => "fallback_interval"
  | .pollInterval _ => "poll_interval"
  | .pollJitter _ => "poll_jitter"

def Entry.fallback? : Entry → Option Time.Interval
  | .fallbackInterval interval => some interval
  | .debounceWindow _ | .pollInterval _ | .pollJitter _ => none

theorem fallback_set (config : Config) (entry : Entry) :
    (config.set entry).fallbackInterval = entry.fallback?.getD config.fallbackInterval := by
  cases entry <;> rfl

/-- Entries of different fields are put together, by induction on the entries. -/
theorem fallback_foldl {entries : List (String × Entry)}
    (typed : ∀ entry ∈ entries, entry.2.name = entry.1)
    (different : (entries.map Prod.fst).Nodup) (config : Config) :
    (entries.foldl (fun config entry => config.set entry.2) config).fallbackInterval =
      ((entries.lookup "fallback_interval").bind Entry.fallback?).getD config.fallbackInterval := by
  induction entries generalizing config with
  | nil => rfl
  | cons entry rest ih =>
      obtain ⟨name, value⟩ := entry
      obtain ⟨own, later⟩ := List.forall_mem_cons.mp typed
      obtain ⟨fresh, others⟩ := List.nodup_cons.mp different
      rw [List.foldl_cons, ih later others, fallback_set, List.lookup_cons]
      split
      · next same =>
          have absent : rest.lookup "fallback_interval" = none := by
            refine Json.Record.lookup_eq_none_iff_count.mpr (List.count_eq_zero.mpr ?_)
            exact eq_of_beq same ▸ fresh
          rw [absent]
          rfl
      · next other =>
          -- An entry of another field leaves the interval as it is.
          have none : value.fallback? = none := by
            cases value with
            | fallbackInterval interval => exact absurd own (beq_eq_false_iff_ne.mp other)
            | debounceWindow _ | pollInterval _ | pollJitter _ => rfl
          rw [none]
          rfl

theorem typed_of_field {read : Json.Reader Entry} {name : String} {tree : Tree} {entry : Entry}
    (field : (name, read) ∈ record.fields) (taken : read tree = .ok entry) : entry.name = name := by
  simp only [record, List.mem_cons, Prod.mk.injEq, List.not_mem_nil, or_false] at field
  rcases field with ⟨rfl, rfl⟩ | ⟨rfl, rfl⟩ | ⟨rfl, rfl⟩ | ⟨rfl, rfl⟩
  all_goals
    obtain ⟨value, -, rfl⟩ := Json.map_eq_ok.mp taken
    rfl

/-- A configuration falls back to what its document tells, or to the default. -/
theorem fallback_of_reader {tree : Tree} {config : Config} (read : reader tree = .ok config) :
    config.fallbackInterval = (Base.told? tree).getD Config.default.fallbackInterval := by
  obtain ⟨entries, done, built⟩ := Json.Record.readAs_eq_ok.mp read
  cases built
  obtain ⟨different, each⟩ := Json.Record.entries_read (by decide) done
  have typed : ∀ entry ∈ entries, entry.2.name = entry.1 := by
    intro entry member
    obtain ⟨reader, inner, field, taken⟩ := each entry member
    exact typed_of_field field taken
  have found : entries.lookup "fallback_interval" =
      ((record.named tree).lookup "fallback_interval").bind fun inner =>
        (Entry.fallbackInterval <$> Time.Interval.reader inner).toOption :=
    Json.Record.lookup_read done "fallback_interval"
  have same : (entries.lookup "fallback_interval").bind Entry.fallback? = Base.told? tree := by
    rw [found, Base.told?, Option.bind_assoc]
    congr 1
    funext inner
    cases Time.Interval.reader inner <;> rfl
  rw [fallback_foldl typed different, same]

end Document

theorem fallback_of_base {base : Base} {config : Config} (begun : base.config? = some config) :
    config.fallbackInterval = base.fallback := by
  cases base with
  | standard =>
      cases begun
      rfl
  | document text =>
      have read := (Json.decodeAll_eq_ok.mp (Json.toOption_eq_some.mp begun)).1
      exact fallback_of_reader read

/-- Whether the fallback interval is what is set. -/
def Setting.isFallback : Setting → Bool
  | .fallbackInterval _ => true
  | .debounceWindow _ | .pollInterval _ | .pollJitter _ _ => false

theorem fallback_adjust (config : Config) (setting : Setting) :
    0 < (config.adjust setting).fallbackInterval.nanos ↔
      setting.isFallback = true ∨ 0 < config.fallbackInterval.nanos := by
  cases setting with
  | fallbackInterval interval =>
      have second : 0 < (Time.Interval.ofSeconds 1).nanos := by decide
      refine iff_of_true ?_ (.inl rfl)
      simp only [adjust, withFallbackInterval, Time.Interval.max]
      split <;> omega
  | debounceWindow _ | pollInterval _ | pollJitter _ _ =>
      simp [adjust, withDebounceWindow, withPollInterval, withPollJitter, Setting.isFallback]

/-- A configuration falls back to some time if one is ever set, or if its base has one: by induction
on the settings, the last one first. -/
theorem fallback_pos_iff {base : Base} {settings : List Setting} {config : Config}
    (obtained : obtain? base settings = some config) :
    0 < config.fallbackInterval.nanos ↔
      (∃ setting ∈ settings, setting.isFallback = true) ∨ 0 < base.fallback.nanos := by
  obtain ⟨first, begun, rfl⟩ := Option.map_eq_some_iff.mp obtained
  rw [← fallback_of_base begun]
  clear obtained
  induction settings using List.reverseRecOn with
  | nil => simp
  | append_singleton settings setting ih =>
      rw [List.foldl_append, List.foldl_cons, List.foldl_nil, fallback_adjust, ih]
      simp only [List.mem_append, List.mem_singleton, or_and_right, exists_or, exists_eq_left]
      exact or_left_comm.trans or_assoc.symm

end Bearer.Config
