import AgentWorth.Core.Tamper
import Mathlib.Logic.Relation

/-!
# Growing chains

A log that several writers share only grows, an entry at a time.  As long as the
signer verifies what it signs, growth never changes the verdict on the log: what
was intact stays intact, what was broken stays broken, and at the same entry.
-/

namespace AgentWorth

open AgentWorth.Js AgentWorth.Lib

variable {crypto : Crypto} {signer : Signer} {entries entries' : List AuditEntry}

/-- A key that signs is the key that its version resolves to. -/
def Signer.Lawful (signer : Signer) : Prop :=
  ∀ key, signer.sign = .ok key → signer.resolveKey key.version = .ok key.material

theorem lawful_operatorSigner (key : String) : (operatorSigner key).Lawful := by
  intro signing hsigning
  cases hsigning
  rfl

/-- One `append` that does not throw. -/
def OneMore (crypto : Crypto) (signer : Signer) (entries entries' : List AuditEntry) : Prop :=
  ∃ key type payload ts, signer.sign = .ok key ∧
    entries' = entries ++ [AuditLog.nextEntry crypto ⟨signer, entries⟩ key type payload ts]

/-- A log and a later state of it. -/
structure Grown (crypto : Crypto) (log log' : AuditLog) : Prop where
  signer : log'.signer = log.signer
  entries : Relation.ReflTransGen (OneMore crypto log.signer) log.entries log'.entries

theorem Grown.refl (log : AuditLog) : Grown crypto log log := ⟨rfl, .refl⟩

theorem Grown.trans {a b c : AuditLog} (h : Grown crypto a b) (h' : Grown crypto b c) :
    Grown crypto a c := by
  have hentries := h'.entries
  rw [h.signer] at hentries
  exact ⟨h'.signer.trans h.signer, h.entries.trans hentries⟩

theorem grown_of_append {log log' : AuditLog} {type : AuditEventType} {payload : JsValue}
    {ts : String} {entry : AuditEntry}
    (h : AuditLog.append crypto log type payload ts = .ok (entry, log')) :
    Grown crypto log log' := by
  obtain ⟨key, hsign, rfl, rfl⟩ := AuditLog.append_eq_ok_iff.1 h
  exact ⟨rfl, .single ⟨key, type, payload, ts, hsign, rfl⟩⟩

/-- What holds of the entries and is kept by every append holds as the log grows. -/
theorem Grown.rule {log log' : AuditLog} {P : List AuditEntry → Prop} (h : Grown crypto log log')
    (hstart : P log.entries)
    (hstep : ∀ es es', P es → OneMore crypto log.signer es es' → P es') : P log'.entries := by
  obtain ⟨-, hentries⟩ := h
  generalize log'.entries = entries' at hentries
  induction hentries with
  | refl => exact hstart
  | tail _ hlast ih => exact hstep _ _ ih hlast

/-- What was genuine stays genuine. -/
theorem Grown.genuine {log log' : AuditLog} (h : Grown crypto log log')
    (hgenuine : Genuine crypto log.signer log.entries) :
    Genuine crypto log.signer log'.entries := by
  refine h.rule hgenuine ?_
  rintro es es' hes ⟨key, type, payload, ts, hsign, rfl⟩
  exact hes.next hsign type payload ts

/-! ## The verdict -/

/-- Two stretches are verified one after the other. -/
theorem verifyFrom_append {π : Type}
    {resolveKey : Option String → π → Except String String × π} {prevHash : String} {p : π} :
    verifyFrom crypto resolveKey prevHash (entries ++ entries') p =
      if (verifyFrom crypto resolveKey prevHash entries p).1.valid then
        verifyFrom crypto resolveKey (headOf AuditEntry.hash prevHash entries) entries'
          (verifyFrom crypto resolveKey prevHash entries p).2
      else verifyFrom crypto resolveKey prevHash entries p := by
  induction entries generalizing prevHash p with
  | nil => rfl
  | cons e es ih =>
      rw [List.cons_append, verifyFrom, verifyFrom, headOf_cons]
      split
      · rfl
      · split
        · rfl
        · split
          · rfl
          · split
            · rfl
            · exact ih

theorem verifyFrom_intact {π : Type}
    {resolveKey : Option String → π → Except String String × π} {prevHash : String} {p : π} :
    (verifyFrom crypto resolveKey prevHash entries p).1.valid = true →
      (verifyFrom crypto resolveKey prevHash entries p).1 = .intact := by
  induction entries generalizing prevHash p with
  | nil => exact fun _ => rfl
  | cons e es ih =>
      -- at a verdict against the entry nothing is valid
      rw [verifyFrom]
      split
      · intro hvalid
        cases hvalid
      · split
        · intro hvalid
          cases hvalid
        · split
          · intro hvalid
            cases hvalid
          · split
            · intro hvalid
              cases hvalid
            · exact ih

theorem verify_oneMore (hlawful : signer.Lawful) (h : OneMore crypto signer entries entries') :
    AuditLog.verify crypto ⟨signer, entries'⟩ = AuditLog.verify crypto ⟨signer, entries⟩ := by
  obtain ⟨key, type, payload, ts, hsign, rfl⟩ := h
  have hlast : ∀ p : Unit, verifyFrom crypto
      (fun version (p : Unit) => (signer.resolveKey version, p))
      (headOf AuditEntry.hash genesis entries)
      [AuditLog.nextEntry crypto ⟨signer, entries⟩ key type payload ts] p = (.intact, p) := by
    intro p
    refine verifyFrom_of_sealed ⟨rfl, trivial⟩ ?_
    intro e he
    rw [List.mem_singleton.1 he]
    exact ⟨key.material, by rw [← hlawful key hsign]; rfl, AuditLog.nextEntry_sealed ..⟩
  unfold AuditLog.verify
  rw [verifyFrom_append]
  split
  · next hvalid =>
      rw [hlast, verifyFrom_intact hvalid]
  · rfl

/-- **Growth keeps the verdict.** -/
theorem Grown.verify {log log' : AuditLog} (h : Grown crypto log log')
    (hlawful : log.signer.Lawful) :
    AuditLog.verify crypto log' = AuditLog.verify crypto log := by
  have hkept : AuditLog.verify crypto ⟨log.signer, log'.entries⟩ = AuditLog.verify crypto log :=
    h.rule (P := fun es => AuditLog.verify crypto ⟨log.signer, es⟩ = AuditLog.verify crypto log)
      rfl fun es es' hes hmore => (verify_oneMore hlawful hmore).trans hes
  rw [← hkept, ← h.signer]

end AgentWorth
