/-!
# Drafts of settings

A draft holds the settings as they were given, before they are checked; what was not given is left
open. Overrides are what the command line gives, and go before all else.
-/

namespace Templating

namespace Settings

structure Overrides where
  logLevel : Option String := none
  logJson : Option Bool := none
  extension : Option String := none
  viewsSlidingSecs : Option Nat := none
  allowControllerless : Option Bool := none
  keyPrefix : Option String := none
  pollMs : Option Nat := none
  deriving DecidableEq

/-- Settings as they were given. -/
structure Draft where
  logLevel : Option String := none
  logJson : Option Bool := none
  viewsFolder : Option String := none
  areasFolder : Option String := none
  partialsFolder : Option String := none
  layoutsFolder : Option String := none
  sharedFolder : Option String := none
  allowControllerless : Option Bool := none
  extension : Option String := none
  viewsSlidingSecs : Option Nat := none
  keyPrefix : Option String := none
  pollMs : Option Nat := none
  missingRetryMs : Option Nat := none
  missingSlidingSecs : Option Nat := none
  viewRecheckMs : Option Nat := none
  compileFailureRetryMs : Option Nat := none
  sweepMs : Option Nat := none
  deriving DecidableEq

/-- Puts overrides in front of a draft. -/
def Draft.override (d : Draft) (o : Overrides) : Draft :=
  { d with
    logLevel := o.logLevel.or d.logLevel
    logJson := o.logJson.or d.logJson
    extension := o.extension.or d.extension
    viewsSlidingSecs := o.viewsSlidingSecs.or d.viewsSlidingSecs
    allowControllerless := o.allowControllerless.or d.allowControllerless
    keyPrefix := o.keyPrefix.or d.keyPrefix
    pollMs := o.pollMs.or d.pollMs }

end Settings

end Templating
