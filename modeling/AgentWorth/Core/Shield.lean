import AgentWorth.Executor.System

/-!
# The shield

`checkIntegrity` of `src/core/shield.ts`, which runs once at startup and then
whenever the database file changes: if the chain in memory does not verify, the
kill switch is engaged.
-/

namespace AgentWorth

inductive ShieldEvent where
  /-- `[SHIELD WARNING]` -/
  | warned (reason : Option String)
  | engaged
  deriving DecidableEq

variable {σ : Type} (d : ExecutorDeps σ)

def checkIntegrity (w : World σ) : World σ × List ShieldEvent :=
  let result := w.audit.verify d.crypto
  if result.valid then (w, [])
  else if isKilled d w.store then (w, [.warned result.reason])
  else ({ w with store := d.store.setMeta w.store killKey "1" }, [.warned result.reason, .engaged])

end AgentWorth
