/-
  BoxedRuntime.Boot — booting a runtime.

  Modules are linked in a fixed order: the builtin ones, then the extensions submitted to
  the process, sorted by name, then the extra ones of this boot. One run of the chain
  fills the registry. A later link registers earlier, and the last registration of a key
  wins, so the builtin modules have the last word on their keys.
-/
import BoxedRuntime.Builtin

namespace BoxedRuntime

structure Runtime where
  registry : Registry
  /-- The module names in the order in which the modules registered. -/
  modules : List String
  report : Report

namespace Boot

def logTarget : String := "brisk_runtime::modules"

/-- Extensions are ordered by name; those of one name stay as submitted. -/
def sortExtensions (extensions : List Module) : List Module :=
  extensions.mergeSort fun a b => decide (a.name ≤ b.name)

def linkOrder (extensions extra : List Module) : List Module :=
  Builtin.modules ++ sortExtensions extensions ++ extra

def linkModules (extensions extra : List Module) : Op (Chain Registry) :=
  Chain.empty.linkAll (linkOrder extensions extra)

def bootingRecord (modules : List String) : LogRecord :=
  ⟨.debug, logTarget, "booting runtime with modules " ++ Quoted.list modules⟩

/-- The last word of a boot. -/
def bootedRecord (modules : List String) (registry : Registry) (report : Report) : LogRecord :=
  if report.isOk then
    ⟨.info, logTarget, s!"runtime ready: {modules.length} module(s), {registry.size} routine(s)"⟩
  else
    let noun := if report.failures.length = 1 then "query" else "queries"
    ⟨.warn, logTarget, s!"runtime booted with {report.failures.length} failing module {noun}"⟩

end Boot

namespace Runtime

def boot (extensions extra : List Module) : Op Runtime := do
  let chain ← Boot.linkModules extensions extra
  Op.emit (Boot.bootingRecord chain.names)
  let (report, registry) ← Startup.runFrom chain.run Registry.empty
  Op.emit (Boot.bootedRecord chain.names registry report)
  return ⟨registry, chain.names, report⟩

def call (r : Runtime) (name : String) (signature : Signature) (args : List Handle) :
    Op (Except UnknownRoutine Handle) :=
  r.registry.call name signature args

end Runtime
end BoxedRuntime
