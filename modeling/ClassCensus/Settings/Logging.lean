import ClassCensus.Text.Basic

/-!
# ClassCensus.Settings.Logging

The settings of the log: the least level that is logged, and where it goes in which format.
-/

namespace ClassCensus

inductive LogLevel where
  | debug
  | info
  | warning
  | error
  | critical
  deriving DecidableEq, Repr

namespace LogLevel

def all : List LogLevel := [debug, info, warning, error, critical]

def text : LogLevel → Text
  | debug => "DEBUG"
  | info => "INFO"
  | warning => "WARNING"
  | error => "ERROR"
  | critical => "CRITICAL"

def ofText? (t : Text) : Option LogLevel := all.find? (·.text = t)

/-- How severe a level is. -/
def severity : LogLevel → Nat
  | debug => 10
  | info => 20
  | warning => 30
  | error => 40
  | critical => 50

end LogLevel

inductive LogFormat where
  | json
  | console
  deriving DecidableEq, Repr

namespace LogFormat

def all : List LogFormat := [json, console]

def text : LogFormat → Text
  | json => "json"
  | console => "console"

def ofText? (t : Text) : Option LogFormat := all.find? (·.text = t)

end LogFormat

/-- One output; without a level of its own it takes that of the whole log. -/
structure LogOutput where
  format : LogFormat := .console
  destination : Text := "stderr"
  level : Option LogLevel := none
  deriving DecidableEq, Repr

structure LoggingSettings where
  level : LogLevel := .info
  outputs : List LogOutput := [{}]
  deriving DecidableEq, Repr

end ClassCensus
