import OnlineJam.Proofs.WelcomeProofs

/-!
# Proofs: how often a WELCOME is sent

A client that is never heard of again is a Pending slot whose two timers nobody resets. What other
clients do leaves the slot alone, and each tick either does nothing to it, sends one more WELCOME or
gives it up.
-/

namespace OnlineJam.HostHandshake

variable {hs : HostHandshake} {a : SocketAddr} {t₀ : Nat} {sent : List Nat}

/-! ## The client between two calls -/

/-- The slot of `a` was last heard of at `t₀` and waits for an ACK since the WELCOMEs sent at these
times. -/
structure Waiting (hs : HostHandshake) (a : SocketAddr) (t₀ : Nat) (sent : List Nat) : Prop where
  distinct : hs.Distinct
  slot : ∃ k name ws last, hs.slots k = some ⟨a, name, .pending ws last sent.length, t₀⟩ ∧
    sent.getLast? = some last
  tries : sent.length ≤ controlMaxTries
  spaced : sent.IsChain fun t t' => t + controlRetryMs ≤ t'

/-- `a` has no slot. -/
def Gone (hs : HostHandshake) (a : SocketAddr) : Prop := ∀ k, hs.addrAt k ≠ some a

/-- What one call does that concerns `a`: the WELCOMEs sent to it, and why its slot was given up. -/
def concerns (a : SocketAddr) (hs : HostHandshake) (op : HostOp) : List HostAction × List LeaveReason :=
  ((op.exec hs).1.filter (HostAction.welcomes a), (op.exec hs).1.filterMap (HostAction.leaves a hs))

theorem concerns_eq_nil {op : HostOp} (h : ∀ act ∈ (op.exec hs).1, act.welcomes a = false ∧
    act.leaves a hs = none) : concerns a hs op = ([], []) := by
  rw [concerns, Prod.mk.injEq, List.filter_eq_nil_iff, List.filterMap_eq_nil_iff]
  exact ⟨fun act hact => by simp [(h act hact).1], fun act hact => (h act hact).2⟩

/-! ## Calls of others -/

theorem clean_broadcastRoster {hs' : HostHandshake} {except : Option SocketAddr} {act : HostAction}
    (h : act ∈ hs'.broadcastRoster except) (a : SocketAddr) (hs : HostHandshake) :
    act.welcomes a = false ∧ act.leaves a hs = none := by
  obtain ⟨dst, rfl⟩ := mem_broadcastRoster h
  exact ⟨rfl, rfl⟩

/-- A call that is neither a tick nor caused by `a` sends it no WELCOME and does not give it up. -/
theorem concerns_silent {op : HostOp} (hop : hs.Silent a op) (ht : ∀ nowMs, op ≠ .tick nowMs) :
    concerns a hs op = ([], []) := by
  apply concerns_eq_nil
  cases op with
  | tick nowMs => exact absurd rfl (ht nowMs)
  | welcomeSent dst seq => exact fun act hact => by cases hact
  | onAck addr ackedSeq nowMs => exact fun act hact => by cases hact
  | markHeard id nowMs => exact fun act hact => by cases hact
  | onHello addr hello nowMs =>
    have hne : addr ≠ a := hop
    have welcome : ∀ (hs' : HostHandshake) i, (HostAction.send addr (hs'.welcomeFor i)).welcomes a = false :=
      fun hs' i => decide_eq_false hne
    have hans := onHello_answers hs addr hello nowMs
    show ∀ act ∈ (hs.onHello addr hello nowMs).1, _
    generalize hs.onHello addr hello nowMs = r at hans ⊢
    intro act hact
    cases hans with
    | ignores h => cases hact
    | refuses hr hno =>
      rw [List.mem_singleton.mp hact]
      exact ⟨rfl, rfl⟩
    | full hnew hfull =>
      rw [List.mem_singleton.mp hact]
      exact ⟨rfl, rfl⟩
    | again hello_eq haddr =>
      rw [List.mem_singleton.mp hact]
      exact ⟨welcome _ _, rfl⟩
    | joins hello_eq hnew hfree =>
      rcases List.mem_cons.mp hact with rfl | hact
      · exact ⟨welcome _ _, rfl⟩
      rcases List.mem_cons.mp hact with rfl | hact
      · exact ⟨rfl, rfl⟩
      · exact clean_broadcastRoster hact a hs
  | onBye addr =>
    have hne : addr ≠ a := hop
    intro act hact
    have hact : act ∈ (hs.removeWhere (fun s => decide (s.addr = addr)) .bye).1 := hact
    rcases mem_removeWhere hact with ⟨i, s, hs', hfrom, rfl⟩ | hact
    · -- A slot that is freed belongs to the address that said BYE.
      refine ⟨rfl, ?_⟩
      rw [HostAction.leaves, clientAddr_senderId, addrAt_of_slots hs', of_decide_eq_true hfrom, if_neg]
      exact fun he => hne (Option.some.inj he)
    · exact clean_broadcastRoster hact a hs

/-- Such a call leaves a slot of `a` as it is, up to the number it remembers. -/
theorem slot_silent {op : HostOp} (hop : hs.Silent a op) (ht : ∀ nowMs, op ≠ .tick nowMs)
    {k : Fin maxClients} {name : String} {ws : Option UInt16} {last tries heard : Nat}
    (hk : hs.slots k = some ⟨a, name, .pending ws last tries, heard⟩) :
    ∃ ws', (op.exec hs).2.slots k = some ⟨a, name, .pending ws' last tries, heard⟩ := by
  cases op with
  | tick nowMs => exact absurd rfl (ht nowMs)
  | welcomeSent dst seq =>
    have hmap : ((HostOp.welcomeSent dst seq).exec hs).2.slots k = (hs.slots k).map _ := rfl
    rw [hmap, hk, Option.map_some]
    by_cases ha : a = dst
    · exact ⟨some seq, by rw [if_pos ha]⟩
    · exact ⟨ws, by rw [if_neg ha]⟩
  | onAck addr ackedSeq nowMs =>
    have hmap : ((HostOp.onAck addr ackedSeq nowMs).exec hs).2.slots k = (hs.slots k).map _ := rfl
    rw [hmap, hk, Option.map_some, if_neg (Ne.symm hop)]
    exact ⟨ws, rfl⟩
  | markHeard id nowMs =>
    refine ⟨ws, ?_⟩
    show (hs.markHeard id nowMs).slots k = _
    rw [markHeard]
    split
    · rename_i slot hslot
      have hne : k ≠ slot := by
        rintro rfl
        apply hop
        rw [slotOfSender_eq_some.mp hslot, clientAddr_senderId, addrAt_of_slots hk]
      split
      · exact (Function.update_of_ne hne _ _).trans hk
      · exact hk
    · exact hk
  | onHello addr hello nowMs =>
    have hne : addr ≠ a := hop
    have other : ∀ {slot : Fin maxClients} {s : HsSlot}, slot ≠ k →
        (hs.setSlot slot (some s)).slots k = some ⟨a, name, .pending ws last tries, heard⟩ :=
      fun hslot => (Function.update_of_ne hslot.symm _ _).trans hk
    refine ⟨ws, ?_⟩
    have hans := onHello_answers hs addr hello nowMs
    show (hs.onHello addr hello nowMs).2.slots k = _
    generalize hs.onHello addr hello nowMs = r at hans ⊢
    cases hans with
    | ignores h => exact hk
    | refuses hr hno => exact hk
    | full hnew hfull => exact hk
    | again hello_eq haddr =>
      refine other ?_
      rintro rfl
      rw [addrAt_of_slots hk] at haddr
      exact hne (Option.some.inj haddr).symm
    | joins hello_eq hnew hfree =>
      refine other ?_
      rintro rfl
      rw [hk] at hfree
      cases hfree
  | onBye addr =>
    refine ⟨ws, ?_⟩
    show (if (hs.slots k).any (fun s => decide (s.addr = addr)) then none else hs.slots k) = _
    rw [if_neg]
    · exact hk
    · rw [hk]
      simpa using Ne.symm hop

theorem Gone.exec (h : hs.Gone a) {op : HostOp} (hop : hs.Silent a op) : (op.exec hs).2.Gone a := by
  intro k hk
  rcases HostOp.moves_exec.addrAt_cases hk with hold | ⟨hello, nowMs, rfl⟩
  · exact h k hold
  · exact hop rfl

/-! ## A tick -/

/-- What a tick does for one client: what it does to the one slot that the client has. -/
theorem concerns_tick (hd : hs.Distinct) {k : Fin maxClients} {s : HsSlot} (hk : hs.slots k = some s)
    (ha : s.addr = a) (nowMs : Nat) :
    concerns a hs (.tick nowMs) =
      (((tickRetry nowMs s).map fun s' =>
        HostAction.send s'.addr ((hs.tick nowMs).2.welcomeFor k)).toList, (tickReason nowMs s).toList) := by
  have haddr : hs.addrAt k = some a := by rw [addrAt_of_slots hk, ha]
  have hother : ∀ i, i ≠ k → ∀ s', hs.slots i = some s' → s'.addr ≠ a := by
    intro i hne s' hs' he
    exact hne (hd i k a (by rw [addrAt_of_slots hs', he]) haddr)
  have hretry : ∀ s s', tickRetry nowMs s = some s' → s'.addr = s.addr := by
    intro s s' h
    unfold tickRetry at h
    split at h
    · rename_i ho
      have hentry : tickEntry nowMs s = some s' := by rw [tickEntry, ho, ← Option.some.inj h]
      exact tickEntry_addr hentry
    · cases h
  obtain ⟨rosters, hactions, hrosters⟩ := hs.tick_actions nowMs
  have hclean := fun act hact => clean_broadcastRoster (hrosters act hact) a hs
  show ((hs.tick nowMs).1.filter (HostAction.welcomes a),
    (hs.tick nowMs).1.filterMap (HostAction.leaves a hs)) = _
  rw [hactions, List.filter_append, List.filter_append, List.filterMap_append, List.filterMap_append]
  have h1 : (indices.filterMap fun i => ((hs.slots i).bind (tickReason nowMs)).map
      (HostAction.clientLeft (senderId i))).filter (HostAction.welcomes a) = [] := by
    rw [List.filter_eq_nil_iff]
    intro act hact
    obtain ⟨i, _, hi⟩ := List.mem_filterMap.mp hact
    obtain ⟨reason, _, rfl⟩ := Option.map_eq_some_iff.mp hi
    exact Bool.false_ne_true
  have h2 : (indices.filterMap fun i => ((hs.slots i).bind (tickRetry nowMs)).map fun s =>
      HostAction.send s.addr ((hs.tick nowMs).2.welcomeFor i)).filterMap (HostAction.leaves a hs) = [] := by
    rw [List.filterMap_eq_nil_iff]
    intro act hact
    obtain ⟨i, _, hi⟩ := List.mem_filterMap.mp hact
    obtain ⟨s', _, rfl⟩ := Option.map_eq_some_iff.mp hi
    rfl
  have h3 : rosters.filter (HostAction.welcomes a) = [] :=
    List.filter_eq_nil_iff.mpr fun act hact => by simp [(hclean act hact).1]
  have h4 : rosters.filterMap (HostAction.leaves a hs) = [] :=
    List.filterMap_eq_nil_iff.mpr fun act hact => (hclean act hact).2
  -- Of the slots only the one of the client counts.
  have h5 : (indices.filterMap fun i => ((hs.slots i).bind (tickRetry nowMs)).map fun s =>
      HostAction.send s.addr ((hs.tick nowMs).2.welcomeFor i)).filter (HostAction.welcomes a) =
        ((tickRetry nowMs s).map fun s' =>
          HostAction.send s'.addr ((hs.tick nowMs).2.welcomeFor k)).toList := by
    rw [List.filter_filterMap, filterMap_single (List.nodup_finRange _) (List.mem_finRange k), hk,
      Option.bind_some]
    · cases hr : tickRetry nowMs s with
      | none => rfl
      | some s' =>
        have hs' : s'.addr = a := (hretry s s' hr).trans ha
        rw [Option.map_some, Option.filter_some, if_pos]
        exact decide_eq_true hs'
    · intro i _ hne
      cases hs' : hs.slots i with
      | none => rfl
      | some s₁ =>
        rw [Option.bind_some]
        cases hr : tickRetry nowMs s₁ with
        | none => rfl
        | some s' =>
          have hne' : ¬ s'.addr = a := by
            rw [hretry s₁ s' hr]
            exact hother i hne s₁ hs'
          rw [Option.map_some, Option.filter_some, if_neg]
          simpa [HostAction.welcomes, welcomeFor] using hne'
  have h6 : (indices.filterMap fun i => ((hs.slots i).bind (tickReason nowMs)).map
      (HostAction.clientLeft (senderId i))).filterMap (HostAction.leaves a hs) =
        (tickReason nowMs s).toList := by
    rw [List.filterMap_filterMap, filterMap_single (List.nodup_finRange _) (List.mem_finRange k), hk,
      Option.bind_some]
    · cases tickReason nowMs s with
      | none => rfl
      | some reason =>
        rw [Option.map_some, Option.bind_some, HostAction.leaves, clientAddr_senderId, if_pos haddr]
    · intro i _ hne
      cases hs' : hs.slots i with
      | none => rfl
      | some s₁ =>
        rw [Option.bind_some]
        cases tickReason nowMs s₁ with
        | none => rfl
        | some reason =>
          rw [Option.map_some, Option.bind_some, HostAction.leaves, clientAddr_senderId, if_neg]
          rw [addrAt_of_slots hs', Option.some_inj]
          exact hother i hne s₁ hs'
  rw [h1, h2, h3, h4, h5, h6]
  simp

/-- A tick does nothing for a client without a slot. -/
theorem Gone.concerns_tick (h : hs.Gone a) (nowMs : Nat) : concerns a hs (.tick nowMs) = ([], []) := by
  apply concerns_eq_nil
  intro act hact
  have hact : act ∈ (hs.tick nowMs).1 := hact
  rcases mem_tick hact with ⟨i, s, reason, hs', _, rfl⟩ | ⟨i, s, s', hs', _, hnew, rfl⟩ | hact
  · refine ⟨rfl, ?_⟩
    rw [HostAction.leaves, clientAddr_senderId, if_neg (h i)]
  · have hgone : (hs.tick nowMs).2.Gone a := h.exec (show hs.Silent a (.tick nowMs) from trivial)
    refine ⟨decide_eq_false fun ha => ?_, rfl⟩
    exact hgone i (by rw [← ha]; exact addrAt_of_slots hnew)
  · exact clean_broadcastRoster hact a hs

/-- The three things a tick does to the slot of a client that waits. -/
theorem Waiting.tick (h : hs.Waiting a t₀ sent) (nowMs : Nat) :
    (due t₀ sent nowMs = none ∧ (hs.tick nowMs).2.Waiting a t₀ sent ∧
      concerns a hs (.tick nowMs) = ([], [])) ∨
    (due t₀ sent nowMs = none ∧ (hs.tick nowMs).2.Waiting a t₀ (sent ++ [nowMs]) ∧
      ∃ act, concerns a hs (.tick nowMs) = ([act], [])) ∨
    ∃ reason, due t₀ sent nowMs = some reason ∧ (hs.tick nowMs).2.Gone a ∧
      concerns a hs (.tick nowMs) = ([], [reason]) := by
  obtain ⟨hd, ⟨k, name, ws, last, hk, hlast⟩, htries, hspaced⟩ := h
  have hmoves : Moves (fun _ => False) hs (hs.tick nowMs).2 := moves_tick hs nowMs
  have hd' := hmoves.distinct hd
  have hafter : (hs.tick nowMs).2.slots k = (hs.slots k).bind (tickEntry nowMs) := rfl
  have hconcerns := concerns_tick hd hk rfl nowMs
  rw [hk, Option.bind_some, tickEntry] at hafter
  rw [tickRetry, tickReason] at hconcerns
  -- Given up: the slot is empty, and it was the only one.
  have gone : ∀ reason, tickSlot nowMs ⟨a, name, .pending ws last sent.length, t₀⟩ = .left reason →
      (hs.tick nowMs).2.Gone a ∧ concerns a hs (.tick nowMs) = ([], [reason]) := by
    intro reason ho
    rw [ho] at hafter hconcerns
    refine ⟨fun i hi => ?_, hconcerns⟩
    rcases hmoves.addrAt_cases hi with hold | hfalse
    · obtain rfl := hd i k a hold (addrAt_of_slots hk)
      rw [addrAt, hafter] at hi
      cases hi
    · exact hfalse
  unfold due
  simp only [hlast, Option.mem_def, Option.some.injEq, exists_eq_left']
  by_cases htimeout : t₀ + peerTimeoutMs < nowMs
  · right; right
    refine ⟨.timeout, if_pos htimeout, gone .timeout ?_⟩
    rw [tickSlot, if_pos (by dsimp only; omega)]
  rw [if_neg htimeout]
  have hslot : tickSlot nowMs ⟨a, name, .pending ws last sent.length, t₀⟩ =
      if nowMs - last ≥ controlRetryMs then
        if sent.length ≥ controlMaxTries then .left .welcomeUnacked
        else .resend ⟨a, name, .pending ws nowMs (sent.length + 1), t₀⟩
      else .kept := by
    rw [tickSlot, if_neg (by dsimp only; omega)]
  have hretry : nowMs - last ≥ controlRetryMs ↔ last + controlRetryMs ≤ nowMs := by
    unfold controlRetryMs
    omega
  by_cases hwait : last + controlRetryMs ≤ nowMs
  · rw [if_pos (hretry.mpr hwait)] at hslot
    by_cases hspent : sent.length = controlMaxTries
    · right; right
      rw [if_pos (le_of_eq hspent.symm)] at hslot
      exact ⟨.welcomeUnacked, if_pos ⟨hspent, hwait⟩, gone .welcomeUnacked hslot⟩
    · right; left
      rw [if_neg (by omega)] at hslot
      rw [hslot] at hafter hconcerns
      refine ⟨if_neg fun hspent' => hspent hspent'.1, ⟨hd', ⟨k, name, ws, nowMs, ?_, ?_⟩, ?_, ?_⟩, _, hconcerns⟩
      · rw [hafter, List.length_append, List.length_singleton]
      · exact List.getLast?_concat
      · rw [List.length_append, List.length_singleton]
        omega
      · refine List.isChain_append.mpr ⟨hspaced, List.isChain_singleton _, fun x hx y hy => ?_⟩
        rw [hlast] at hx
        obtain rfl := Option.some.inj hx
        obtain rfl := Option.some.inj hy
        exact hwait
  · left
    rw [if_neg (hretry.not.mpr hwait)] at hslot
    rw [hslot] at hafter hconcerns
    exact ⟨if_neg fun hspent => hwait hspent.2, ⟨hd', ⟨k, name, ws, last, hafter, hlast⟩, htries, hspaced⟩,
      hconcerns⟩

/-! ## Runs -/

theorem Waiting.silent (h : hs.Waiting a t₀ sent) {op : HostOp} (hop : hs.Silent a op)
    (ht : ∀ nowMs, op ≠ .tick nowMs) : (op.exec hs).2.Waiting a t₀ sent := by
  obtain ⟨hd, ⟨k, name, ws, last, hk, hlast⟩, htries, hspaced⟩ := h
  obtain ⟨ws', hk'⟩ := slot_silent hop ht hk
  exact ⟨HostOp.moves_exec.distinct hd, ⟨k, name, ws', last, hk', hlast⟩, htries, hspaced⟩

theorem welcomeTimes_cons (a : SocketAddr) (hs : HostHandshake) (op : HostOp) (ops : List HostOp) :
    welcomeTimes a hs (op :: ops) = (concerns a hs op).1.map (fun _ => op.time) ++
      welcomeTimes a (op.exec hs).2 ops := rfl

theorem departures_cons (a : SocketAddr) (hs : HostHandshake) (op : HostOp) (ops : List HostOp) :
    departures a hs (op :: ops) = (concerns a hs op).2.map (fun reason => (op.time, reason)) ++
      departures a (op.exec hs).2 ops := rfl

theorem Gone.run (h : hs.Gone a) {ops : List HostOp} (hops : SilentRun a hs ops) :
    welcomeTimes a hs ops = [] ∧ departures a hs ops = [] := by
  induction ops generalizing hs with
  | nil => exact ⟨rfl, rfl⟩
  | cons op ops ih =>
    obtain ⟨hop, hops⟩ := hops
    obtain ⟨hw, hdep⟩ := ih (h.exec hop) hops
    have hc : concerns a hs op = ([], []) := by
      by_cases ht : ∃ nowMs, op = .tick nowMs
      · obtain ⟨nowMs, rfl⟩ := ht
        exact h.concerns_tick nowMs
      · exact concerns_silent hop fun nowMs he => ht ⟨nowMs, he⟩
    rw [welcomeTimes_cons, departures_cons, hc, hw, hdep]
    exact ⟨rfl, rfl⟩

/-- A call at which the client is not given up comes before a run that ends so. -/
theorem Ends.cons {op : HostOp} {ops : List HostOp} (more : List Nat)
    (h : Ends a t₀ (sent ++ more) (op.exec hs).2 ops)
    (hwelcomes : (concerns a hs op).1.map (fun _ => op.time) = more) (hleaves : (concerns a hs op).2 = [])
    (hdue : ∀ nowMs, op = .tick nowMs → due t₀ sent nowMs = none) : Ends a t₀ sent hs (op :: ops) := by
  have hw : ∀ ops, welcomeTimes a hs (op :: ops) = more ++ welcomeTimes a (op.exec hs).2 ops := by
    intro ops
    rw [welcomeTimes_cons, hwelcomes]
  have hdep : departures a hs (op :: ops) = departures a (op.exec hs).2 ops := by
    rw [departures_cons, hleaves]
    rfl
  have hnone : ∀ {pre}, NoneDue a t₀ sent hs (op :: pre) →
      NoneDue a t₀ (sent ++ more) (op.exec hs).2 pre := by
    intro pre hn pre' nowMs post he
    have := hn (op :: pre') nowMs post (by rw [he]; rfl)
    rwa [hw, ← List.append_assoc] at this
  refine ⟨?_, ?_, fun hn => ?_, fun pre nowMs post reason he hn hd => ?_⟩
  · rw [hw, ← List.append_assoc]
    exact h.tries
  · rw [hw, ← List.append_assoc]
    exact h.spaced
  · rw [hdep]
    exact h.stays (hnone hn)
  · cases pre with
    | nil =>
      obtain ⟨rfl, -⟩ := List.cons.inj he
      rw [show sent ++ welcomeTimes a hs [] = sent from List.append_nil _, hdue nowMs rfl] at hd
      cases hd
    | cons op' pre =>
      have hrest := (List.cons.inj he).2
      obtain rfl := (List.cons.inj he).1
      rw [hw, ← List.append_assoc] at hd
      obtain ⟨hd₁, hw₁⟩ := h.leaves pre nowMs post reason hrest (hnone hn) hd
      exact ⟨hdep.trans hd₁, by rw [hw, hw, hw₁]⟩

theorem Waiting.run (h : hs.Waiting a t₀ sent) {ops : List HostOp} (hops : SilentRun a hs ops) :
    Ends a t₀ sent hs ops := by
  induction ops generalizing hs sent with
  | nil =>
    refine ⟨?_, ?_, fun _ => rfl, fun pre nowMs post reason he => ?_⟩
    · rw [show sent ++ welcomeTimes a hs [] = sent from List.append_nil _]
      exact h.tries
    · rw [show sent ++ welcomeTimes a hs [] = sent from List.append_nil _]
      exact h.spaced
    · cases pre <;> cases he
  | cons op ops ih =>
    obtain ⟨hop, hops⟩ := hops
    by_cases ht : ∃ nowMs, op = .tick nowMs
    · obtain ⟨nowMs, rfl⟩ := ht
      rcases h.tick nowMs with ⟨hdue, hw, hc⟩ | ⟨hdue, hw, act, hc⟩ | ⟨reason, hdue, hgone, hc⟩
      · refine Ends.cons [] ?_ (by rw [hc]; rfl) (by rw [hc]) fun t he => ?_
        · rw [List.append_nil]
          exact ih hw hops
        · cases he
          exact hdue
      · refine Ends.cons [nowMs] (ih hw hops) (by rw [hc]; rfl) (by rw [hc]) fun t he => ?_
        cases he
        exact hdue
      · -- The tick that gives it up: nothing follows.
        obtain ⟨hw, hdep⟩ := hgone.run hops
        have hw' : welcomeTimes a hs (.tick nowMs :: ops) = [] := by
          rw [welcomeTimes_cons, hc]
          exact hw
        have hdep' : departures a hs (.tick nowMs :: ops) = [(nowMs, reason)] := by
          rw [departures_cons, hc]
          exact congrArg _ hdep
        refine ⟨by rw [hw', List.append_nil]; exact h.tries, by rw [hw', List.append_nil]; exact h.spaced,
          fun hn => ?_, fun pre t post reason' he hn hd => ?_⟩
        · have hfirst := hn [] nowMs ops rfl
          rw [show sent ++ welcomeTimes a hs [] = sent from List.append_nil _, hdue] at hfirst
          cases hfirst
        · cases pre with
          | nil =>
            obtain ⟨he, -⟩ := List.cons.inj he
            cases he
            rw [show sent ++ welcomeTimes a hs [] = sent from List.append_nil _, hdue] at hd
            obtain rfl := Option.some.inj hd
            exact ⟨hdep', hw'⟩
          | cons op' pre =>
            obtain ⟨rfl, -⟩ := List.cons.inj he
            have hfirst := hn [] nowMs pre rfl
            rw [show sent ++ welcomeTimes a hs [] = sent from List.append_nil _, hdue] at hfirst
            cases hfirst
    · have ht : ∀ nowMs, op ≠ .tick nowMs := fun nowMs he => ht ⟨nowMs, he⟩
      have hc := concerns_silent hop ht
      refine Ends.cons [] ?_ (by rw [hc]; rfl) (by rw [hc]) fun t he => absurd he (ht t)
      rw [List.append_nil]
      exact ih (h.silent hop ht) hops

/-! ## Main result -/

/-- A HELLO that is answered with a WELCOME puts the client where it waits for the first time. -/
theorem waiting_of_welcomed (hd : hs.Distinct) {hello : Control}
    (hacc : welcomeTimes a hs [.onHello a hello t₀] ≠ []) :
    (hs.onHello a hello t₀).2.Waiting a t₀ [t₀] ∧ welcomeTimes a hs [.onHello a hello t₀] = [t₀] ∧
      departures a hs [.onHello a hello t₀] = [] := by
  have hd' : (hs.onHello a hello t₀).2.Distinct := (onHello_spec hs a hello t₀).1.distinct hd
  have hwelcomed : welcomeTimes a hs [.onHello a hello t₀] =
      ((hs.onHello a hello t₀).1.filter (HostAction.welcomes a)).map fun _ => t₀ := List.append_nil _
  have hleft : departures a hs [.onHello a hello t₀] = ((hs.onHello a hello t₀).1.filterMap
      (HostAction.leaves a hs)).map fun reason => (t₀, reason) := List.append_nil _
  rw [hwelcomed, hleft]
  rw [hwelcomed] at hacc
  have waiting : ∀ {slot : Fin maxClients} {name : String},
      (hs.setSlot slot (some (newcomer a name t₀))).Distinct →
        (hs.setSlot slot (some (newcomer a name t₀))).Waiting a t₀ [t₀] := fun hd' =>
    ⟨hd', ⟨_, _, none, t₀, Function.update_self _ _ _, rfl⟩, Nat.le_of_ble_eq_true rfl,
      List.isChain_singleton _⟩
  have welcome : ∀ (hs' : HostHandshake) i, (HostAction.send a (hs'.welcomeFor i)).welcomes a = true :=
    fun hs' i => decide_eq_true rfl
  have hans := onHello_answers hs a hello t₀
  generalize hs.onHello a hello t₀ = r at hans hacc hd' ⊢
  cases hans with
  | ignores hne => exact absurd rfl hacc
  | refuses hr hno => exact absurd rfl hacc
  | full hnew hfull => exact absurd rfl hacc
  | again hello_eq haddr =>
    refine ⟨waiting hd', ?_, rfl⟩
    rw [List.filter_cons_of_pos (welcome _ _)]
    rfl
  | @joins slot name _ _ hello_eq hnew hfree =>
    have hrosters : ∀ act ∈ (hs.setSlot slot (some (newcomer a name t₀))).broadcastRoster (some a),
        act.welcomes a = false ∧ act.leaves a hs = none := fun act hact => clean_broadcastRoster hact a hs
    refine ⟨waiting hd', ?_, ?_⟩
    · rw [List.filter_cons_of_pos (welcome _ _), List.filter_cons_of_neg Bool.false_ne_true,
        List.filter_eq_nil_iff.mpr fun act hact => by simp [(hrosters act hact).1]]
      rfl
    · rw [List.map_eq_nil_iff, List.filterMap_eq_nil_iff]
      intro act hact
      rcases List.mem_cons.mp hact with rfl | hact
      · rfl
      rcases List.mem_cons.mp hact with rfl | hact
      · rfl
      · exact (hrosters act hact).2

end OnlineJam.HostHandshake

namespace OnlineJam

open HostHandshake

/-- After any run, a client that is sent a WELCOME at `t₀` and never heard of again is sent at most
`controlMaxTries` of them in all, is given up once, at the first tick that is due to, and is sent none
after that. -/
theorem welcome_budget (roomCode : Vector UInt8 roomCodeLen) (sessionId : UInt16) (params : SessionParams)
    (hostName : String) (before : List HostOp) (a : SocketAddr) (hello : Control) (t₀ : Nat)
    (ops : List HostOp)
    (hacc : welcomeTimes a (HostHistory.run (new roomCode sessionId params hostName) before).hs
      [.onHello a hello t₀] ≠ [])
    (hops : SilentRun a ((HostHistory.run (new roomCode sessionId params hostName) before).hs.onHello a
      hello t₀).2 ops) :
    welcomeTimes a (HostHistory.run (new roomCode sessionId params hostName) before).hs
      [.onHello a hello t₀] = [t₀] ∧
    departures a (HostHistory.run (new roomCode sessionId params hostName) before).hs
      [.onHello a hello t₀] = [] ∧
    Ends a t₀ [t₀] ((HostHistory.run (new roomCode sessionId params hostName) before).hs.onHello a
      hello t₀).2 ops := by
  have hd : (HostHistory.run (new roomCode sessionId params hostName) before).hs.Distinct :=
    HostHistory.distinct_run (fun i j b hi => by cases hi) before
  obtain ⟨hwaiting, hwelcomed, hleft⟩ := waiting_of_welcomed hd hacc
  exact ⟨hwelcomed, hleft, hwaiting.run hops⟩

/-- Ann says HELLO at 100 and is not heard of again. She is sent another WELCOME at 350; at 5101 her slot is
given up, and Bob gets it. -/
def annUnheard : List HostOp :=
  [.welcomeSent (.v4 1 5000) 7, .tick 350, .welcomeSent (.v4 1 5000) 8, .tick 5101,
    .onHello (.v4 2 5000) (.hello protocolVersion jamRoom "bob" 7 3) 5200, .markHeard 1 6000]

theorem welcome_budget_unheard :
    let hs := (jamHost.onHello (.v4 1 5000) (.hello protocolVersion jamRoom "ann" 7 3) 100).2
    welcomeTimes (.v4 1 5000) hs annUnheard = [350] ∧
      departures (.v4 1 5000) hs annUnheard = [(5101, .timeout)] := by
  intro hs
  have hsilent : SilentRun (.v4 1 5000) hs annUnheard := by decide +kernel
  have hends := (welcome_budget jamRoom 7 { sampleRate := 48000, frameSamples := 120, codec := .pcmS16 }
    "host" [] (.v4 1 5000) (.hello protocolVersion jamRoom "ann" 7 3) 100 annUnheard (by decide +kernel)
    hsilent).2.2
  have hnone : NoneDue (.v4 1 5000) 100 [100] hs (annUnheard.take 3) := by
    intro pre nowMs post he
    rcases pre with _ | ⟨_, _ | ⟨_, _ | ⟨_, pre⟩⟩⟩
    · cases he
    · cases he
      decide +kernel
    · cases he
    · cases pre <;> cases he
  have htimes : welcomeTimes (.v4 1 5000) hs (annUnheard.take 3) = [350] := by decide +kernel
  obtain ⟨hleft, hwelcomed⟩ := hends.leaves (annUnheard.take 3) 5101 _ .timeout rfl hnone
    (by decide +kernel)
  exact ⟨hwelcomed.trans htimes, hleft⟩

end OnlineJam
