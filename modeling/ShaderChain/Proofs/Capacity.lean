import ShaderChain.Proofs.Settings
import ShaderChain.Service.Startup

/-!
# How many jobs a configuration may ask for

The number of jobs that may run at once is read as a number of 64 bits and raised to one, twice:
when the configuration is read and when the service is set up. Nothing lowers it, and a gate has
at most `maxPermits` permits, an eighth of what the number can be. So a configuration that is
accepted can still ask for more than there can be, and the service that is set up with it fails
(`Startup.build_of_load`, `Startup.too_many_jobs`).
-/

namespace ShaderChain

namespace Config

variable {env : Environment} {config : Config} {processors n : Nat}

/-- The variable with the number of jobs that may run at once. -/
def concurrencyVariable : String := "MAX_CONCURRENT_COMPILES"

/-- The number of jobs that an environment asks for: the one in its variable, and without one the
number of processors. -/
inductive Asks (env : Environment) (processors : Nat) : Nat → Prop
  | said {text : String} {n : Nat} (htext : env.text? concurrencyVariable = some text)
    (hparse : Decimal.parse 64 text = .ok n) : Asks env processors n
  | unsaid (htext : env.text? concurrencyVariable = none) : Asks env processors processors

/-- What is asked for is a number of 64 bits unless it is that of the processors. -/
theorem Asks.bounded (h : Asks env processors n) : n < Nat.pow 2 64 ∨ n = processors := by
  cases h with
  | said _ hparse => exact .inl (Decimal.parse_eq_ok_iff.mp hparse).2
  | unsaid _ => exact .inr rfl

/-- An accepted environment asks for one number only. -/
theorem Asks.unique {m : Nat} (hn : Asks env processors n) (hm : Asks env processors m) :
    n = m := by
  cases hn with
  | said htext hparse =>
    cases hm with
    | said htext' hparse' =>
      obtain rfl := Option.some.inj (htext.symm.trans htext')
      exact Except.ok.inj (hparse.symm.trans hparse')
    | unsaid htext' => cases htext.symm.trans htext'
  | unsaid htext =>
    cases hm with
    | said htext' _ => cases htext.symm.trans htext'
    | unsaid _ => rfl

/-- As many jobs may run at once as the environment asks for, and at least one. -/
theorem permits_of_load (h : load env = .ok config) (processors : Nat) :
    ∃ n, Asks env processors n ∧ config.permits processors = max n 1 := by
  obtain ⟨hread, rfl⟩ := load_eq_ok_iff.mp h
  have htaken := (follows_settled hread).concurrency
  unfold permits
  generalize (settled env).concurrency = concurrency at htaken
  cases htaken with
  | @said n hsaid =>
    obtain ⟨text, hlookup, hnumeral⟩ := hsaid
    have htext := Environment.text?_eq_some_iff.mpr hlookup
    refine ⟨n, .said htext (Decimal.parse_eq_ok_iff.mpr hnumeral), ?_⟩
    show max (max n 1) 1 = max n 1
    rw [Nat.max_assoc, Nat.max_self]
  | unsaid hsilent => exact ⟨processors, .unsaid (silent_iff.mp hsilent), rfl⟩

end Config

namespace Gate

/-- A gate has any number of permits up to the greatest that there can be. -/
theorem ofPermits?_max_one (n : Nat) :
    ofPermits? (max n 1) = if n ≤ maxPermits then some { free := max n 1 } else none := by
  have hone : 1 ≤ maxPermits := by decide
  have hmax : max n 1 ≤ maxPermits ↔ n ≤ maxPermits := by
    rw [Nat.max_le, and_iff_left hone]
  simp only [ofPermits?, hmax]

end Gate

namespace Startup

/-- An accepted configuration asks for a number of jobs. It is served, with as many permits but at
least one, unless the number is greater than there can be permits; then the setup fails whatever
the tools are. -/
theorem build_of_load {env : Environment} {config : Config} (hload : Config.load env = .ok config)
    (processors : Nat) :
    ∃ n, Config.Asks env processors n ∧ (n < Nat.pow 2 64 ∨ n = processors) ∧
      config.permits processors = max n 1 ∧
      ∀ (files : FileSystem) (specs : List Spec) (registry : Registry),
        Discovery.discover files config.overrides (env.lookup "PATH") specs = .ok registry →
          build config env files specs processors =
            if n ≤ maxPermits then .ok (.of config registry, { gate := { free := max n 1 } })
            else .error .tooManyPermits := by
  obtain ⟨n, hasks, hpermits⟩ := Config.permits_of_load hload processors
  refine ⟨n, hasks, hasks.bounded, hpermits, fun files specs registry hdiscover => ?_⟩
  unfold build
  rw [hdiscover, hpermits, Gate.ofPermits?_max_one]
  by_cases hfits : n ≤ maxPermits
  · rw [if_pos hfits, if_pos hfits]
    rfl
  · rw [if_neg hfits, if_neg hfits]
    rfl

/-- The environment in which nothing is set but the number of jobs. -/
def asking (number : String) : Environment :=
  [(Config.concurrencyVariable, Utf8.ofText number)]

/-- The greatest number of permits can be asked for. -/
theorem most_jobs :
    Config.load (asking "2305843009213693951") = .ok { concurrency := .atMost maxPermits } ∧
      build { concurrency := .atMost maxPermits } (asking "2305843009213693951") {} catalog 8 =
        .ok (.of { concurrency := .atMost maxPermits }
          { tools := catalog.map fun spec => .of spec none }, { gate := { free := maxPermits } }) := by
  have hload : Config.load (asking "2305843009213693951") =
      .ok { concurrency := .atMost maxPermits } := rfl
  have hsaid : Config.Asks (asking "2305843009213693951") 8 maxPermits := .said rfl rfl
  obtain ⟨n, hasks, -, -, hbuild⟩ := build_of_load hload 8
  obtain rfl := hasks.unique hsaid
  exact ⟨hload, hbuild {} catalog { tools := catalog.map fun spec => .of spec none } rfl⟩

/-- One more is accepted as well, but is more than there can be, and the service fails. -/
theorem too_many_jobs :
    Config.load (asking "2305843009213693952") =
        .ok { concurrency := .atMost (maxPermits + 1) } ∧
      maxPermits < ({ concurrency := .atMost (maxPermits + 1) } : Config).permits 8 ∧
      start (asking "2305843009213693952") {} {} 8 = .error .tooManyPermits :=
  ⟨rfl, by decide, rfl⟩

end Startup

end ShaderChain
