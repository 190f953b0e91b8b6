import AgentWorth.Rails.Progress

/-!
# Orders

What leaves the executor is not the settlements its rails confirm but the orders
their clients place: a transfer, a card, a settlement of the facilitator, a
mandate presented.  An intent has at most one order, the order its adapter
places for exactly this intent after the gate let it through, and a settlement
is booked only with the reference under which its order went through.
-/

namespace AgentWorth

open AgentWorth.Js AgentWorth.Lib

variable {σ : Type} {d : ExecutorDeps σ} {R : RailSet} (C : Contract d.store)

namespace Railed

section

variable {t t' : Railed σ} {past : List RailedEvent} {es : List RailedEvent}

/-- A call that waits for its rail is the one whose payment is under way. -/
theorem RailedInv.talking_at (hinv : RailedInv C R past t) {k : Nat} {call : Call}
    {provider : PaymentProvider} (hwait : atRail t.executor k = some (call, provider)) :
    ∃ spec talk replies, provider = createNetworkRail spec ∧
      call.intent.id ∉ settledIds (coreEvents past) ∧ t.talk k = some talk ∧
      Told R spec call replies talk.pending past ∧
      talk.Keeps (payment call.intent (spec.Places call.intent))
        (spec.Receipts call.intent call.now) (phaseOf spec call replies) := by
  obtain ⟨hslot, hstage⟩ := atRail_iff.1 hwait
  have hhere : ¬ t.Away call.intent.id := by
    intro haway
    have hanswered := haway call (mem_of_slot hslot) rfl
    simp [Call.isAnswered, hstage] at hanswered
  cases hinv.progress call.intent.id with
  | unbegun unsettled asked heard away => exact absurd away hhere
  | ended named told settled away => exact absurd away hhere
  | talking named unsettled waiting talks told keeps =>
      obtain ⟨hslot', -⟩ := atRail_iff.1 waiting
      have hk := slot_unique hinv.once.settles.distinct hslot' hslot named
      subst hk
      rw [hwait] at waiting
      cases waiting
      exact ⟨_, _, _, rfl, unsettled, talks, told, keeps⟩

/-- Another id waits at another slot. -/
theorem ne_slot {k j : Nat} {call call' : Call} {provider provider' : PaymentProvider}
    (hk : atRail t.executor k = some (call, provider))
    (hj : atRail t.executor j = some (call', provider'))
    (hne : call'.intent.id ≠ call.intent.id) : j ≠ k := by
  rintro rfl
  rw [hk] at hj
  cases hj
  exact hne rfl

/-! ## An answer from outside -/

theorem railedStep_hear {k : Nat} {reply : RailReply}
    (htaken : railedStep d R t (.hear k reply) = some (t', es)) :
    ∃ call provider talk talk', atRail t.executor k = some (call, provider) ∧
      t.talk k = some talk ∧ talk.hear reply = some talk' ∧
      t' = { t with talks := t.talks.set k (some talk') } ∧
      es = .heard call reply :: asks call (some talk') := by
  simp only [railedStep] at htaken
  split at htaken
  · next call provider talk' hwait hheard =>
      obtain ⟨talk, htalk, hreply⟩ := Option.bind_eq_some_iff.1 hheard
      cases htaken
      exact ⟨call, provider, talk, talk', hwait, htalk, hreply, rfl, rfl⟩
  · cases htaken

/-- The pending question is answered, and the next one asked. -/
theorem Told.hear {spec : NetworkRailSpec} {call : Call} {replies : List RailReply}
    {reply : RailReply} (told : Told R spec call replies (some reply.1) past)
    (hmay : (payment call.intent (spec.Places call.intent)).may (phaseOf spec call replies)
      reply.1) (talk' : RailDialogue Receipt) :
    Told R spec call (replies ++ [reply]) talk'.pending
      (past ++ .heard call reply :: asks call (some talk')) where
  mem := told.mem
  invoked := by
    rw [coreEvents_append]
    exact List.mem_append_left _ told.invoked
  cleared := told.cleared
  lawful := (Conduct.lawful_snoc _).2 ⟨told.lawful, hmay⟩
  heard := by
    have hnow : heardFor call.intent.id (.heard call reply :: asks call (some talk')) =
        (call, reply) :: heardFor call.intent.id (asks call (some talk')) := by
      simp [heardFor]
    rw [heardFor_append, told.heard, hnow, heardFor_asks, List.map_append]
    rfl
  asked := by
    rw [askedFor_append, told.asked]
    show _ ++ askedFor call.intent.id (asks call (some talk')) = _
    rw [askedFor_asks_self]
    simp

theorem RailedInv.hear (hinv : RailedInv C R past t) {k : Nat} {reply : RailReply}
    (htaken : railedStep d R t (.hear k reply) = some (t', es)) :
    RailedInv C R (past ++ es) t' := by
  obtain ⟨call, provider, talk, talk', hwait, htalk, hreply, rfl, rfl⟩ := railedStep_hear htaken
  have hcore : coreEvents (.heard call reply :: asks call (some talk')) = [] :=
    coreEvents_asks call (some talk')
  have hlt : k < t.talks.length := by
    rw [hinv.aligned]
    exact (List.getElem?_eq_some_iff.1 (atRail_iff.1 hwait).1).1
  refine ⟨?_, ?_, ?_⟩
  · rw [coreEvents_append, hcore, List.append_nil]
    exact hinv.once
  · rw [List.length_set]
    exact hinv.aligned
  intro id
  by_cases hid : call.intent.id = id
  · subst hid
    obtain ⟨spec, was, replies, rfl, hunsettled, hwas, told, keeps⟩ := hinv.talking_at C hwait
    rw [htalk] at hwas
    cases hwas
    obtain ⟨hpending, hmay, hkeeps⟩ := keeps.hear hreply
    rw [hpending] at told
    refine .talking rfl ?_ hwait ?_ (told.hear hmay talk') ?_
    · rw [coreEvents_append, hcore, List.append_nil]
      exact hunsettled
    · simp [Railed.talk, hlt]
    · rw [phaseOf, Conduct.phase_snoc]
      exact hkeeps
  · refine (hinv.progress id).carry ?_ ?_ ?_ (by rw [hcore]; exact List.not_mem_nil)
    · refine ⟨?_, fun c hc _ _ => hc⟩
      intro j c p hj hname
      refine ⟨j, hj, ?_⟩
      have hne : j ≠ k := ne_slot hwait hj (by rw [hname]; exact Ne.symm hid)
      simp only [Railed.talk]
      rw [List.getElem?_set_ne (Ne.symm hne)]
    · exact askedFor_asks_other hid (some talk')
    · have hnow : heardFor id (.heard call reply :: asks call (some talk')) =
          heardFor id (asks call (some talk')) := by
        simp [heardFor, hid]
      rw [hnow, heardFor_asks]

/-! ## A step of the executor -/

theorem railedStep_run {a : Action} (htaken : railedStep d R t (.run a) = some (t', es)) :
    ∃ s es₀, t.permits R a = true ∧ step d t.executor a = some (s, es₀) ∧
      t' = { executor := s, talks := t.kept a s ++ (newCalls t.executor s).map R.opening } ∧
      es = es₀.map .executor ++
        (newCalls t.executor s).flatMap fun call => asks call (R.opening call) := by
  simp only [railedStep] at htaken
  split at htaken
  · next hpermits =>
      obtain ⟨⟨s, es₀⟩, hstep, heq⟩ := Option.map_eq_some_iff.1 htaken
      cases heq
      exact ⟨s, es₀, hpermits, hstep, rfl, rfl⟩
  · cases htaken

theorem newCalls_of_length_le {s s' : State σ} (h : s'.calls.length ≤ s.calls.length) :
    newCalls s s' = [] := List.drop_eq_nil_of_le h

theorem newCalls_append {s s' : State σ} {call : Call} (h : s'.calls = s.calls ++ [call]) :
    newCalls s s' = [call] := by
  rw [newCalls, h]
  exact List.drop_left

/-- A step after which no fewer calls are suspended drops no dialogue. -/
theorem kept_of_le {a : Action} {s : State σ} (h : t.executor.calls.length ≤ s.calls.length) :
    t.kept a s = t.talks := by
  unfold Railed.kept
  cases a.slot with
  | none => rfl
  | some k => exact if_neg (by omega)

theorem kept_of_lt {a : Action} {s : State σ} {k : Nat} (hslot : a.slot = some k)
    (h : s.calls.length < t.executor.calls.length) : t.kept a s = t.talks.eraseIdx k := by
  unfold Railed.kept
  rw [hslot]
  exact if_pos h

/-- A step of the executor that suspends no call asks and hears nothing. -/
theorem eventsOf_idle {s s' : State σ} (hnone : newCalls s s' = []) (es₀ : List Event) :
    es₀.map RailedEvent.executor ++
      (newCalls s s').flatMap (fun call => asks call (R.opening call)) =
    es₀.map RailedEvent.executor := by
  rw [hnone, List.flatMap_nil, List.append_nil]

/-- The payments of the ids a step is not about stay where they are. -/
theorem RailedInv.carry (hinv : RailedInv C R past t) {id : String} {es₀ : List Event}
    (hstays : Stays t t' id) (hsettled : id ∉ settledIds es₀) :
    Progress R t' (past ++ es₀.map .executor) id := by
  refine (hinv.progress id).carry hstays (askedFor_map id es₀) (heardFor_map id es₀) ?_
  rw [coreEvents_map]
  exact hsettled

theorem stays_of_same {s : State σ} (id : String) (hcalls : s.calls = t.executor.calls) :
    Stays t { executor := s, talks := t.talks } id := by
  refine ⟨?_, ?_⟩
  · intro k call provider hwait _
    obtain ⟨hslot, hstage⟩ := atRail_iff.1 hwait
    exact ⟨k, atRail_iff.2 ⟨by rw [hcalls]; exact hslot, hstage⟩, rfl⟩
  · intro call hcall _ _
    rw [← hcalls]
    exact hcall

/-- A call that resumes leaves every call at a rail next to its dialogue. -/
theorem stays_of_eraseIdx {k : Nat} {call : Call} {outcome : Except String (Receipt × Bool)}
    {s : State σ} (id : String) (hwait : atResume t.executor k = some (call, outcome))
    (hcalls : s.calls = t.executor.calls.eraseIdx k) :
    Stays t { executor := s, talks := t.talks.eraseIdx k } id := by
  obtain ⟨hslot, hanswered⟩ := atResume_iff.1 hwait
  refine ⟨?_, ?_⟩
  · intro j c p hj _
    obtain ⟨hjslot, hstage⟩ := atRail_iff.1 hj
    have hjk : j ≠ k := by
      rintro rfl
      rw [hslot] at hjslot
      cases hjslot
      rw [hanswered] at hstage
      cases hstage
    obtain ⟨i, hi, htalk⟩ := slots_eraseIdx t.talks hjslot hjk
    refine ⟨i, atRail_iff.2 ⟨by rw [hcalls]; exact hi, hstage⟩, ?_⟩
    simp only [Railed.talk, htalk]
  · intro c hc _ _
    rw [hcalls] at hc
    exact List.mem_of_mem_eraseIdx hc

/-- The suspended calls change at one slot only. -/
theorem stays_of_set {k : Nat} {call : Call} {provider : PaymentProvider} {s : State σ}
    {stage : Stage} {id : String} (hwait : atRail t.executor k = some (call, provider))
    (hcalls : s.calls = t.executor.calls.set k { call with stage := stage })
    (hne : call.intent.id ≠ id) : Stays t { executor := s, talks := t.talks } id := by
  have hslot := (atRail_iff.1 hwait).1
  refine ⟨?_, ?_⟩
  · intro j c p hj hname
    have hjk : j ≠ k := ne_slot hwait hj (by rw [hname]; exact Ne.symm hne)
    obtain ⟨hjslot, hstage⟩ := atRail_iff.1 hj
    refine ⟨j, atRail_iff.2 ⟨?_, hstage⟩, rfl⟩
    show s.calls[j]? = some c
    rw [hcalls, List.getElem?_set_ne (Ne.symm hjk), hjslot]
  · intro c hc hname _
    have hmem : c ∈ t.executor.calls.set k { call with stage := stage } := by
      rw [← hcalls]
      exact hc
    rcases List.mem_cons.1 ((perm_set hslot).mem_iff.1 hmem) with heq | hrest
    · rw [heq] at hname
      exact absurd hname hne
    · exact List.mem_of_mem_eraseIdx hrest

/-- The call whose rail has answered leaves its id with none waiting. -/
theorem away_of_set {k : Nat} {call : Call} {provider : PaymentProvider} {s : State σ}
    {outcome : Except String (Receipt × Bool)} (hinv : RailedInv C R past t)
    (hwait : atRail t.executor k = some (call, provider))
    (hcalls : s.calls = t.executor.calls.set k { call with stage := .settled outcome }) :
    Away { executor := s, talks := t.talks } call.intent.id := by
  have hslot := (atRail_iff.1 hwait).1
  intro c hc hname
  have hmem : c ∈ t.executor.calls.set k { call with stage := .settled outcome } := by
    rw [← hcalls]
    exact hc
  rcases List.mem_cons.1 ((perm_set hslot).mem_iff.1 hmem) with rfl | hrest
  · rfl
  · exact absurd hname (ne_of_mem_eraseIdx hinv.once.settles.distinct hslot c hrest)

/-- A call that has just suspended leaves the others where they are. -/
theorem stays_of_append {s : State σ} {call : Call} {id : String}
    {opened : Option (RailDialogue Receipt)} (haligned : t.talks.length = t.executor.calls.length)
    (hcalls : s.calls = t.executor.calls ++ [call])
    (hother : call.intent.id = id → call.isAnswered = true) :
    Stays t { executor := s, talks := t.talks ++ [opened] } id := by
  refine ⟨?_, ?_⟩
  · intro j c p hj _
    obtain ⟨hslot, hstage⟩ := atRail_iff.1 hj
    have hlt := (List.getElem?_eq_some_iff.1 hslot).1
    refine ⟨j, atRail_iff.2 ⟨?_, hstage⟩, ?_⟩
    · show s.calls[j]? = some c
      rw [hcalls, List.getElem?_append_left hlt, hslot]
    · have hlt' : j < t.talks.length := by rw [haligned]; exact hlt
      simp only [Railed.talk]
      rw [List.getElem?_append_left hlt']
  · intro c hc hname hunanswered
    have hmem : c ∈ t.executor.calls ++ [call] := by
      rw [← hcalls]
      exact hc
    rcases List.mem_append.1 hmem with hold | hnew
    · exact hold
    · rw [List.mem_singleton.1 hnew] at hname hunanswered
      rw [hother hname] at hunanswered
      cases hunanswered

/-- The rail is invoked, and its first question asked. -/
theorem Told.begin {call : Call} {spec : NetworkRailSpec} (hspec : spec ∈ R.specs)
    (hcleared : call.Cleared)
    (hinvoked : call.invocation = [.railInvoked call (createNetworkRail spec)])
    (hopening : R.opening call = some (spec.settle call.intent call.now))
    (hasked : askedFor call.intent.id past = []) (hheard : heardFor call.intent.id past = []) :
    Told R spec call [] (spec.settle call.intent call.now).pending
      (past ++ (call.invocation.map .executor ++ asks call (R.opening call))) where
  mem := hspec
  invoked := by
    rw [coreEvents_append, coreEvents_append, coreEvents_map, hinvoked]
    exact List.mem_append_right _ (List.mem_append_left _ (List.mem_singleton_self _))
  cleared := hcleared
  lawful := trivial
  heard := by
    rw [heardFor_append, heardFor_append, heardFor_map, heardFor_asks, hheard]
    rfl
  asked := by
    rw [askedFor_append, askedFor_append, askedFor_map, hasked, askedFor_asks_self, hopening]
    rfl

/-- A call that reaches its rail begins the payment of its intent. -/
theorem RailedInv.begin (hinv : RailedInv C R past t) {s : State σ} {call : Call}
    {spec : NetworkRailSpec} (hspec : spec ∈ R.specs)
    (hstage : call.stage = .rail (createNetworkRail spec)) (hcleared : call.Cleared)
    (hcalls : s.calls = t.executor.calls ++ [call])
    (hfresh : ¬ SpentId (t.executor.books C) t.executor.calls call.intent.id) :
    Progress R { executor := s, talks := t.talks ++ [R.opening call] }
      (past ++ (call.invocation.map .executor ++ asks call (R.opening call)))
      call.intent.id := by
  have hinvoked : call.invocation = [.railInvoked call (createNetworkRail spec)] := by
    unfold Call.invocation
    rw [hstage]
  have hopening : R.opening call = some (spec.settle call.intent call.now) := by
    unfold RailSet.opening
    rw [hstage]
    simp only [RailSet.specOf_createNetworkRail hspec, Option.map_some]
  cases hinv.progress call.intent.id with
  | talking named unsettled waiting talks told keeps =>
      refine absurd (Or.inl ⟨_, mem_of_slot (atRail_iff.1 waiting).1, named⟩) hfresh
  | ended named told settled away =>
      refine absurd (hinv.once.spent _ ?_) hfresh
      rw [← named]
      exact List.mem_map_of_mem (List.mem_filterMap.2 ⟨_, told.invoked, rfl⟩)
  | unbegun unsettled asked heard away =>
      have hcore : coreEvents (call.invocation.map .executor ++ asks call (R.opening call)) =
          call.invocation := by
        rw [coreEvents_append, coreEvents_map, coreEvents_asks, List.append_nil]
      have hwaits : atRail s t.executor.calls.length = some (call, createNetworkRail spec) := by
        refine atRail_iff.2 ⟨?_, hstage⟩
        rw [hcalls]
        simp
      refine .talking rfl ?_ hwaits ?_ (.begin hspec hcleared hinvoked hopening asked heard)
        (spec.settle_keeps call.intent call.now)
      · refine not_mem_settled_append unsettled ?_
        rw [hcore, hinvoked]
        exact List.not_mem_nil
      · rw [Railed.talk, ← hinv.aligned, hopening]
        simp

/-- `provider.settle` ends as its dialogue has. -/
theorem permits_returns {k : Nat} {receipt : Receipt} {verified : Except String Bool}
    {talk : RailDialogue Receipt} (htalk : t.talk k = some talk)
    (h : t.permits R (.railReturns k receipt verified) = true) :
    talk.result = some (.ok receipt) := by
  simp only [Railed.permits, htalk, Option.bind_some] at h
  split at h
  · next r call provider hresult hwait =>
      rw [hresult, eq_of_beq (Bool.and_eq_true_iff.1 h).1]
  · cases h

theorem permits_throws {k : Nat} {error : String} {talk : RailDialogue Receipt}
    (htalk : t.talk k = some talk) (h : t.permits R (.railThrows k error) = true) :
    talk.result = some (.error error) := by
  simp only [Railed.permits, htalk, Option.bind_some] at h
  split at h
  · next e hresult => rw [hresult, eq_of_beq h]
  · cases h

/-- A rail that has returned or thrown ends the payment of its intent. -/
theorem RailedInv.close (hinv : RailedInv C R past t) {k : Nat} {call : Call}
    {provider : PaymentProvider} {s : State σ} {outcome : Except String (Receipt × Bool)}
    {result : Except String Receipt} {es₀ : List Event}
    (hwait : atRail t.executor k = some (call, provider))
    (hcalls : s.calls = t.executor.calls.set k { call with stage := .settled outcome })
    (hresult : ∀ talk, t.talk k = some talk → talk.result = some result)
    (hsettled : ∀ c p r, .railSettled c p r ∈ es₀ → c = call ∧ p = provider ∧ result = .ok r)
    (id : String) :
    Progress R { executor := s, talks := t.talks } (past ++ es₀.map .executor) id := by
  by_cases hid : call.intent.id = id
  · subst hid
    obtain ⟨spec, talk, replies, rfl, hunsettled, htalk, told, keeps⟩ := hinv.talking_at C hwait
    have hend := hresult talk htalk
    rw [Dialogue.pending_of_result hend] at told
    refine .ended rfl (told.more (askedFor_map _ _) (heardFor_map _ _)) ?_
      (away_of_set C hinv hwait hcalls)
    intro c p r hmem hname
    rw [coreEvents_append, coreEvents_map] at hmem
    rcases List.mem_append.1 hmem with hmem | hmem
    · exact absurd (hname ▸ mem_settledIds hmem) hunsettled
    · obtain ⟨rfl, rfl, rfl⟩ := hsettled c p r hmem
      exact ⟨rfl, rfl, keeps.result hend⟩
  · refine hinv.carry C (stays_of_set hwait hcalls hid) ?_
    intro hmem
    obtain ⟨c, p, r, hmem, hname⟩ := exists_of_mem_settledIds hmem
    obtain ⟨rfl, -⟩ := hsettled c p r hmem
    exact hid hname

/-- A call that suspends begins the payment of its intent, if a rail has it. -/
theorem RailedInv.start (hinv : RailedInv C R past t) {s : State σ} {call : Call}
    (hcalls : s.calls = t.executor.calls ++ [call]) (hcleared : call.Cleared)
    (hrouted : ∀ provider, call.stage = .rail provider →
      ∃ spec ∈ R.specs, createNetworkRail spec = provider)
    (hfresh : ∀ provider, call.stage = .rail provider →
      ¬ SpentId (t.executor.books C) t.executor.calls call.intent.id) (id : String) :
    Progress R { executor := s, talks := t.talks ++ [R.opening call] }
      (past ++ (call.invocation.map .executor ++ asks call (R.opening call))) id := by
  have hother : (call.intent.id = id → call.isAnswered = true) →
      askedFor id (asks call (R.opening call)) = [] →
      Progress R { executor := s, talks := t.talks ++ [R.opening call] }
        (past ++ (call.invocation.map .executor ++ asks call (R.opening call))) id := by
    intro hanswered hasked
    refine (hinv.progress id).carry (stays_of_append hinv.aligned hcalls hanswered) ?_ ?_ ?_
    · rw [askedFor_append, askedFor_map, hasked, List.append_nil]
    · rw [heardFor_append, heardFor_map, heardFor_asks, List.append_nil]
    · rw [coreEvents_append, coreEvents_map, coreEvents_asks, List.append_nil,
        settledIds_invocation]
      exact List.not_mem_nil
  cases hstage : call.stage with
  | settled outcome =>
      refine hother ?_ ?_
      · intro _
        simp only [Call.isAnswered, hstage]
      · simp [RailSet.opening, hstage, asks, askedFor]
  | rail provider =>
      by_cases hid : call.intent.id = id
      · subst hid
        obtain ⟨spec, hspec, rfl⟩ := hrouted provider hstage
        exact hinv.begin C hspec hstage hcleared hcalls (hfresh _ hstage)
      · exact hother (fun h => absurd h hid) (askedFor_asks_other hid _)

/-- A step that suspends no call keeps the invariant if it keeps the payments. -/
theorem RailedInv.of_idle {s : State σ} {talks : List (Option (RailDialogue Receipt))}
    {es₀ : List Event} (honce : AskOnceInv C (coreEvents past ++ es₀) s)
    (haligned : talks.length = s.calls.length)
    (hprogress : ∀ id, Progress R { executor := s, talks := talks }
      (past ++ es₀.map .executor) id) :
    RailedInv C R (past ++ es₀.map .executor) { executor := s, talks := talks } where
  once := by
    rw [coreEvents_append, coreEvents_map]
    exact honce
  aligned := haligned
  progress := hprogress

theorem RailedInv.run (hrails : d.rails = R.registry) (hinv : RailedInv C R past t) {a : Action}
    (hguard : OneCallPerId d [] t.executor a)
    (htaken : railedStep d R t (.run a) = some (t', es)) : RailedInv C R (past ++ es) t' := by
  obtain ⟨s, es₀, hpermits, hstep, rfl, rfl⟩ := railedStep_run htaken
  obtain ⟨heffect, -⟩ := step_effect C hstep
  have honce := askOnce_step C hinv.once hguard hstep
  have hasks := heffect.asks C hguard
  have hchange := heffect.slot_change C hinv.once.settles.synced
  generalize hcalls : s.calls = calls at hchange
  cases hchange with
  | same unasked unsettled =>
      have hnone : newCalls t.executor s = [] := newCalls_of_length_le (by rw [hcalls])
      rw [eventsOf_idle hnone, hnone, List.map_nil, List.append_nil,
        kept_of_le (by rw [hcalls])]
      refine .of_idle C honce (by rw [hcalls]; exact hinv.aligned) ?_
      intro id
      exact hinv.carry C (stays_of_same id hcalls) (by rw [unsettled]; exact List.not_mem_nil)
  | @resumed k _ call outcome waiting unasked unsettled =>
      have hk := (List.getElem?_eq_some_iff.1 (atResume_iff.1 waiting).1).1
      have hlength : s.calls.length = t.executor.calls.length - 1 := by
        rw [hcalls, List.length_eraseIdx_of_lt hk]
      have hkt : k < t.talks.length := by rw [hinv.aligned]; exact hk
      have hnone : newCalls t.executor s = [] := newCalls_of_length_le (by omega)
      rw [eventsOf_idle hnone, hnone, List.map_nil, List.append_nil,
        kept_of_lt (k := k) rfl (by omega)]
      refine .of_idle C honce ?_ ?_
      · rw [List.length_eraseIdx_of_lt hkt, hinv.aligned, hlength]
      · intro id
        exact hinv.carry C (stays_of_eraseIdx id waiting hcalls)
          (by rw [unsettled]; exact List.not_mem_nil)
  | @returned k receipt verified call provider outcome waiting =>
      have hlength : s.calls.length = t.executor.calls.length := by
        rw [hcalls, List.length_set]
      have hnone : newCalls t.executor s = [] := newCalls_of_length_le (by omega)
      rw [eventsOf_idle hnone, hnone, List.map_nil, List.append_nil, kept_of_le (by omega)]
      refine .of_idle C honce (by rw [hlength]; exact hinv.aligned) ?_
      refine hinv.close C waiting hcalls (fun _ htalk => permits_returns htalk hpermits) ?_
      intro c p r hmem
      cases List.mem_singleton.1 hmem
      exact ⟨rfl, rfl, rfl⟩
  | @threw k error call provider outcome waiting =>
      have hlength : s.calls.length = t.executor.calls.length := by
        rw [hcalls, List.length_set]
      have hnone : newCalls t.executor s = [] := newCalls_of_length_le (by omega)
      rw [eventsOf_idle hnone, hnone, List.map_nil, List.append_nil, kept_of_le (by omega)]
      refine .of_idle C honce (by rw [hlength]; exact hinv.aligned) ?_
      refine hinv.close C waiting hcalls (fun _ htalk => permits_throws htalk hpermits) ?_
      intro c p r hmem
      cases List.mem_singleton.1 hmem
  | @started _ call cleared routed =>
      have hnew : newCalls t.executor s = [call] := newCalls_append hcalls
      have hlength : s.calls.length = t.executor.calls.length + 1 := by
        rw [hcalls, List.length_append, List.length_singleton]
      rw [hnew, List.map_singleton, List.flatMap_singleton, kept_of_le (by omega)]
      refine ⟨?_, ?_, ?_⟩
      · rw [coreEvents_append, coreEvents_append, coreEvents_map, coreEvents_asks,
          List.append_nil]
        exact honce
      · rw [List.length_append, List.length_singleton, hinv.aligned, hlength]
      · refine hinv.start C hcalls cleared ?_ ?_
        · intro provider hstage
          exact RailSet.mem_of_get (by rw [← hrails]; exact routed provider hstage)
        · intro provider hstage
          have hasked : railIds call.invocation = [call.intent.id] := by
            simp [Call.invocation, hstage, railIds, railCalls]
          rcases hasks with hnone | ⟨id, hid, hfresh, -⟩
          · rw [hasked] at hnone
            cases hnone
          · rw [hasked] at hid
            cases hid
            exact hfresh

end

/-! ## Runs -/

theorem mem_askedFor {es : List RailedEvent} {call : Call} {q : RailQuestion} {id : String} :
    (call, q) ∈ askedFor id es ↔ .asked call q ∈ es ∧ call.intent.id = id := by
  constructor
  · intro h
    obtain ⟨e, he, heq⟩ := List.mem_filterMap.1 h
    cases e with
    | executor | heard => cases heq
    | asked call' q' =>
        dsimp only at heq
        split at heq
        · next hid =>
            cases heq
            exact ⟨he, hid⟩
        · cases heq
  · rintro ⟨he, rfl⟩
    exact List.mem_filterMap.2 ⟨_, he, if_pos rfl⟩

theorem heard_of_mem {es : List RailedEvent} {call : Call} {reply : RailReply} {id : String}
    (h : (call, reply) ∈ heardFor id es) : .heard call reply ∈ es := by
  obtain ⟨e, he, heq⟩ := List.mem_filterMap.1 h
  cases e with
  | executor | asked => cases heq
  | heard call' reply' =>
      dsimp only at heq
      split at heq
      · cases heq
        exact he
      · cases heq

/-- The orders of a dialogue whose pending question is in order. -/
theorem Told.orders_cases {spec : NetworkRailSpec} {call : Call} {replies : List RailReply}
    {pending : Option RailQuestion} {past : List RailedEvent}
    (h : Told R spec call replies pending past)
    (hmay : ∀ q, pending = some q →
      (payment call.intent (spec.Places call.intent)).may (phaseOf spec call replies) q) :
    ordersFor call.intent.id past = [] ∨
      ∃ q, ordersFor call.intent.id past = [(call, q)] ∧ spec.Places call.intent q := by
  have hso := orders_of_lawful h.lawful
  have hall : ordersFor call.intent.id past =
      (orders replies ++ pending.toList.filter RailQuestion.isOrder).map (Prod.mk call) := by
    rw [ordersFor, h.asked, List.filter_map, orders, ← List.filter_append]
    rfl
  cases hpending : pending.toList.filter RailQuestion.isOrder with
  | nil =>
      rw [hall, hpending, List.append_nil]
      generalize (payment call.intent (spec.Places call.intent)).phase .fresh replies = p at hso
      cases hso with
      | fresh none => exact Or.inl (by rw [none, List.map_nil])
      | signed none => exact Or.inl (by rw [none, List.map_nil])
      | ordered one placed replied => exact Or.inr ⟨_, by rw [one]; rfl, placed⟩
  | cons q rest =>
      cases pending with
      | none => cases hpending
      | some asked =>
          have hasked : q ∈ (some asked).toList.filter RailQuestion.isOrder := by
            rw [hpending]
            exact List.mem_cons_self ..
          obtain ⟨hq, horder⟩ := List.mem_filter.1 hasked
          obtain rfl : q = asked := by simpa using hq
          obtain ⟨hnone, hplaced⟩ := hso.first (hmay _ rfl) horder
          refine Or.inr ⟨q, ?_, hplaced⟩
          rw [hall, hnone]
          simp [horder]

/-- The payments of a run, as seen from outside. -/
structure PaidExactly (R : RailSet) (es : List RailedEvent) : Prop where
  /-- an intent has at most one order -/
  once : ∀ id, (ordersFor id es).length ≤ 1
  /-- an order is the one its adapter places for an intent the gate let through -/
  placed : ∀ call q, .asked call q ∈ es → q.isOrder = true → call.Cleared ∧
    ∃ spec ∈ R.specs, .executor (.railInvoked call (createNetworkRail spec)) ∈ es ∧
      spec.Places call.intent q
  /-- a settlement has an order that went through, and its reference -/
  backed : ∀ call p r, .executor (.railSettled call p r) ∈ es →
    ∃ spec ∈ R.specs, p = createNetworkRail spec ∧ ∃ order answer settlement,
      spec.Places call.intent order ∧ .heard call ⟨order, answer⟩ ∈ es ∧
      order.reference answer = some settlement.providerRef ∧
      r = spec.receipt call.intent call.now settlement

theorem mem_coreEvents {es : List RailedEvent} {e : Event} :
    e ∈ coreEvents es ↔ .executor e ∈ es := by
  constructor
  · intro h
    obtain ⟨e', he', heq⟩ := List.mem_filterMap.1 h
    cases e' with
    | executor e₀ =>
        cases heq
        exact he'
    | asked | heard => cases heq
  · exact fun h => List.mem_filterMap.2 ⟨_, h, rfl⟩

/-- The orders of an id, and what stands behind one. -/
theorem Progress.orders_cases {t : Railed σ} {past : List RailedEvent} {id : String}
    (h : Progress R t past id) :
    ordersFor id past = [] ∨ ∃ call spec q, ordersFor id past = [(call, q)] ∧
      call.Cleared ∧ spec ∈ R.specs ∧
      .railInvoked call (createNetworkRail spec) ∈ coreEvents past ∧
      spec.Places call.intent q := by
  cases h with
  | unbegun unsettled asked heard away => exact Or.inl (by rw [ordersFor, asked]; rfl)
  | talking named unsettled waiting talks told keeps =>
      subst named
      rcases told.orders_cases fun q hq => keeps.pending hq with hnone | ⟨q, hone, hplaced⟩
      · exact Or.inl hnone
      · exact Or.inr ⟨_, _, q, hone, told.cleared, told.mem, told.invoked, hplaced⟩
  | ended named told settled away =>
      subst named
      rcases told.orders_cases (by rintro q ⟨⟩) with hnone | ⟨q, hone, hplaced⟩
      · exact Or.inl hnone
      · exact Or.inr ⟨_, _, q, hone, told.cleared, told.mem, told.invoked, hplaced⟩

theorem RailedInv.paidExactly {t : Railed σ} {past : List RailedEvent}
    (hinv : RailedInv C R past t) : PaidExactly R past where
  once := by
    intro id
    rcases (hinv.progress id).orders_cases with hnone | ⟨call, spec, q, hone, -⟩
    · rw [hnone]
      exact Nat.zero_le 1
    · rw [hone]
      exact Nat.le_refl 1
  placed := by
    intro call q hasked horder
    have hmem : (call, q) ∈ ordersFor call.intent.id past :=
      List.mem_filter.2 ⟨mem_askedFor.2 ⟨hasked, rfl⟩, horder⟩
    rcases (hinv.progress call.intent.id).orders_cases with
      hnone | ⟨call', spec, q', hone, hcleared, hspec, hinvoked, hplaced⟩
    · rw [hnone] at hmem
      cases hmem
    · rw [hone] at hmem
      cases List.mem_singleton.1 hmem
      exact ⟨hcleared, spec, hspec, mem_coreEvents.1 hinvoked, hplaced⟩
  backed := by
    intro call p r hsettled
    have hmem := mem_coreEvents.2 hsettled
    cases hinv.progress call.intent.id with
    | unbegun unsettled asked heard away => exact absurd (mem_settledIds hmem) unsettled
    | talking named unsettled waiting talks told keeps =>
        exact absurd (mem_settledIds hmem) unsettled
    | @ended call' spec replies named told settled away =>
        obtain ⟨rfl, rfl, settlement, rfl, order, answer, hphase, href⟩ :=
          settled call p r hmem named.symm
        refine ⟨spec, told.mem, rfl, order, answer, settlement, ?_, ?_, href, rfl⟩
        all_goals
          have hso := orders_of_lawful told.lawful
          rw [show (payment call.intent (spec.Places call.intent)).phase .fresh replies =
            .ordered order answer from hphase] at hso
        · cases hso with
          | ordered one placed replied => exact placed
        · cases hso with
          | ordered one placed replied =>
              have hheard : (call, ⟨order, answer⟩) ∈ heardFor call.intent.id past := by
                rw [told.heard]
                exact List.mem_map_of_mem replied
              exact heard_of_mem hheard

end Railed

namespace Sample

/-- A card rail with virtual cards, and one that nobody has configured. -/
def cardRails : RailSet where
  specs :=
    [createVisaIntelligentCommerceRail
      (some (createVirtualCardRailClient { resolveMerchant := fun _ => some "acme ltd" })),
      createX402Rail none]
  routes _ := none
  distinct := by decide

def railedDeps : ExecutorDeps Books := { deps with rails := cardRails.registry }

def railedStart : Railed Books where
  executor := start

def cardOrder (id : String) : RailQuestion := .createCard 40 "USD" (some "acme ltd") id

/-- The receipt of a card. -/
def cardReceiptOf (id cardId : String) : Receipt where
  id := "rcpt_visa-intelligent-commerce_" ++ id
  intentId := id
  rail := .card
  amount := 40
  currency := "USD"
  settledAt := noon
  providerRef := cardId
  finality := .reversible
  providerId := none

/-- Two payments at once: the issuer fails for one and mints a card for the
other. -/
def cardActions : List RailedAction :=
  [.run (pay "a" 40), .run (pay "b" 40),
    .hear 1 ⟨cardOrder "b", .ok { cardId := "ic_1", spendLimitMinor := 40 }⟩,
    .hear 0 ⟨cardOrder "a", .error "issuer unavailable"⟩,
    .run (.railReturns 1 (cardReceiptOf "b" "ic_1") (.ok true)),
    .run (.railThrows 0 "issuer unavailable"), .run (.resume 0), .run (.resume 0)]

end Sample

end AgentWorth
