import LambdaMOO.Network.Restart

/-!
# Players and boots

The built-in functions that ask for the connection of a player agree with each other. A player
who is booted does not have a connection for any of them, and the connection is closed by the
next round of the main loop at the latest, but for one case: a connection that takes over from
one of another listener is not closed by an earlier boot.
-/

namespace LambdaMOO

/-! ### What the built-in functions say -/

namespace Server

section

variable {s : Server} {init : Int → Option Int} {h : Shandle} {p : Int} {nh : Nat}

lemma findShandle_of_mem (hs : Sound s.identities s.nextUnconnectedPlayer)
    (hh : h ∈ s.allShandles) : s.findShandle h.player = some h := by
  cases hfind : s.findShandle h.player with
  | none =>
    rw [findShandle, List.find?_eq_none] at hfind
    exact absurd (decide_eq_true rfl) (hfind h hh)
  | some h' =>
    obtain ⟨hh', hp⟩ := mem_of_findShandle hfind
    rw [List.inj_on_of_nodup_map (players_nodup hs) hh' hh hp]

lemma shandle_of_mem (hs : Sound s.identities s.nextUnconnectedPlayer)
    (hh : h ∈ s.allShandles) : s.shandle h.nhandle = some h := by
  have hnhandles := hs.nhandles
  rw [identities, List.map_map] at hnhandles
  cases hfind : s.shandle h.nhandle with
  | none =>
    rw [shandle, List.find?_eq_none] at hfind
    exact absurd (decide_eq_true rfl) (hfind h hh)
  | some h' =>
    obtain ⟨hh', hnh⟩ := mem_of_shandle hfind
    rw [List.inj_on_of_nodup_map hnhandles hh' hh hnh]

lemma connectedPlayers_eq (he : s.inEmergencyMode = false) (showAll : Bool) :
    s.connectedPlayers showAll = (s.allShandles.filter fun h =>
      (showAll || h.connectionTime != 0) && !h.disconnectMe).map Shandle.player := by
  simp [connectedPlayers, he]

lemma mem_connectedPlayers (he : s.inEmergencyMode = false) {showAll : Bool} :
    p ∈ s.connectedPlayers showAll ↔ ∃ h ∈ s.allShandles, h.player = p ∧
      (showAll = true ∨ h.connectionTime ≠ 0) ∧ h.disconnectMe = false := by
  rw [connectedPlayers_eq he, List.mem_map]
  constructor
  · rintro ⟨h, hh, hp⟩
    simp only [List.mem_filter, Bool.and_eq_true, Bool.or_eq_true, bne_iff_ne, Bool.not_eq_true']
      at hh
    exact ⟨h, hh.1, hp, hh.2⟩
  · rintro ⟨h, hh, hp, hall, hd⟩
    refine ⟨h, ?_, hp⟩
    simp only [List.mem_filter, Bool.and_eq_true, Bool.or_eq_true, bne_iff_ne, Bool.not_eq_true']
    exact ⟨hh, hall, hd⟩

lemma exists_connectedSeconds_iff (hs : Sound s.identities s.nextUnconnectedPlayer)
    (he : s.inEmergencyMode = false) :
    (∃ time n, s.connectedSeconds p time = some n) ↔ p ∈ s.connectedPlayers false := by
  rw [mem_connectedPlayers he]
  constructor
  · rintro ⟨time, n, hn⟩
    rw [connectedSeconds] at hn
    cases hfind : s.findShandle p with
    | none => simp [hfind] at hn
    | some h =>
      obtain ⟨hh, hp⟩ := mem_of_findShandle hfind
      by_cases hopen : h.connectionTime ≠ 0 ∧ (!h.disconnectMe) = true
      · exact ⟨h, hh, hp, .inr hopen.1, by simpa using hopen.2⟩
      · simp only [hfind, if_neg hopen, Int.reduceNeg, Int.reduceLT, if_true, reduceCtorEq] at hn
  · rintro ⟨h, hh, rfl, hall, hd⟩
    have htime : h.connectionTime ≠ 0 := by simpa using hall
    refine ⟨h.connectionTime, 0, ?_⟩
    simp [connectedSeconds, findShandle_of_mem hs hh, htime, hd]

lemma exists_idleSeconds_iff (hs : Sound s.identities s.nextUnconnectedPlayer)
    (he : s.inEmergencyMode = false) :
    (∃ time n, s.idleSeconds p time = some n) ↔ p ∈ s.connectedPlayers true := by
  rw [mem_connectedPlayers he]
  constructor
  · rintro ⟨time, n, hn⟩
    rw [idleSeconds] at hn
    cases hfind : s.findShandle p with
    | none => simp [hfind] at hn
    | some h =>
      obtain ⟨hh, hp⟩ := mem_of_findShandle hfind
      cases hd : h.disconnectMe with
      | false => exact ⟨h, hh, hp, .inl rfl, hd⟩
      | true => simp [hfind, hd] at hn
  · rintro ⟨h, hh, rfl, -, hd⟩
    refine ⟨h.lastActivityTime, 0, ?_⟩
    simp [idleSeconds, findShandle_of_mem hs hh, hd]

lemma allShandles_bootPlayer (hs : Sound s.identities s.nextUnconnectedPlayer) (p : Int) :
    (s.bootPlayer p).allShandles = s.allShandles.map fun h =>
      if h.player = p then { h with disconnectMe := true } else h := by
  have hboot : (s.bootPlayer p).allShandles = (s.findShandle p).elim s.allShandles fun h =>
      (s.modify h.nhandle fun h => { h with disconnectMe := true }).allShandles := by
    rw [bootPlayer]
    cases s.findShandle p with
    | none => split_ifs <;> rfl
    | some h => split_ifs <;> rfl
  rw [hboot]
  cases hfind : s.findShandle p with
  | none =>
    rw [findShandle, List.find?_eq_none] at hfind
    refine ((List.map_congr_left fun h hh => if_neg ?_).trans (List.map_id _)).symm
    exact fun hp => hfind h hh (decide_eq_true hp)
  | some h₀ =>
    obtain ⟨hh₀, rfl⟩ := mem_of_findShandle hfind
    refine List.map_congr_left fun h hh => ?_
    have hsame : h.nhandle = h₀.nhandle ↔ h.player = h₀.player :=
      ⟨fun heq => congrArg Identity.player
          (hs.eq_of_nhandle (identity_mem hh) (identity_mem hh₀) heq),
        fun heq => congrArg Identity.nhandle
          (hs.eq_of_player (identity_mem hh) (identity_mem hh₀) heq)⟩
    by_cases hp : h.player = h₀.player
    · rw [if_pos hp, if_pos (hsame.mpr hp)]
    · rw [if_neg hp, if_neg fun heq => hp (hsame.mp heq)]

/-- A boot takes the player away, and nobody else. -/
lemma connectedPlayers_bootPlayer (hs : Sound s.identities s.nextUnconnectedPlayer)
    (he : s.inEmergencyMode = false) (p : Int) (showAll : Bool) :
    (s.bootPlayer p).connectedPlayers showAll
      = (s.connectedPlayers showAll).filter fun q => q ≠ p := by
  have hemergency := (Reacts.bootPlayer s p).emergency.trans he
  rw [connectedPlayers_eq hemergency, connectedPlayers_eq he, allShandles_bootPlayer hs,
    List.filter_map, List.map_map, List.filter_map, List.filter_filter]
  have hplayer : ∀ h : Shandle, (if h.player = p then { h with disconnectMe := true }
      else h).player = h.player := by
    intro h
    split_ifs <;> rfl
  rw [show (Shandle.player ∘ fun h => if h.player = p then { h with disconnectMe := true } else h)
    = Shandle.player from funext hplayer]
  congr 1
  apply List.filter_congr
  intro h _
  by_cases hp : h.player = p
  · simp [hp]
  · simp [hp]

/-- Between two steps of the main loop `connected_seconds` answers for the players whom
`connected_players` lists, and `idle_seconds` for those whom it lists with all connections. No
player is listed twice, and a boot takes away one player and nobody else. -/
theorem run_players (react : Reaction) (directory : Directory) (emergency : List MooOp)
    (checkpointed : List (Int × Int)) (h : (checkpointed.map Prod.fst).Nodup)
    (events : List ServerEvent) :
    ∃ s, run react (launch react (some checkpointed) directory emergency) events = .ok s ∧
      (∀ showAll, (s.connectedPlayers showAll).Nodup) ∧
      (∀ p, (∃ time n, s.connectedSeconds p time = some n) ↔ p ∈ s.connectedPlayers false) ∧
      (∀ p, (∃ time n, s.idleSeconds p time = some n) ↔ p ∈ s.connectedPlayers true) ∧
      ∀ p showAll, (s.bootPlayer p).connectedPlayers showAll
        = (s.connectedPlayers showAll).filter fun q => q ≠ p := by
  obtain ⟨s, hrun, hf⟩ := exists_run react h directory emergency events
  refine ⟨s, hrun, fun showAll => ?_, fun p => exists_connectedSeconds_iff hf.sound hf.emergency,
    fun p => exists_idleSeconds_iff hf.sound hf.emergency,
    connectedPlayers_bootPlayer hf.sound hf.emergency⟩
  rw [connectedPlayers_eq hf.emergency]
  exact (players_nodup hf.sound).sublist (List.filter_sublist.map Shandle.player)

theorem run_players_login :
    ([((5 : Int), (0 : Int))].map Prod.fst).Nodup ∧
      ∃ s, run (fun _ => []) (launch (fun _ => []) (some [(5, 0)]) plainDirectory [])
          [.accept none 1 100, .login (-2) 7 false 101] = .ok s ∧
        (∀ showAll, (s.connectedPlayers showAll).Nodup) ∧
        (∀ p, (∃ time n, s.connectedSeconds p time = some n) ↔ p ∈ s.connectedPlayers false) ∧
        (∀ p, (∃ time n, s.idleSeconds p time = some n) ↔ p ∈ s.connectedPlayers true) ∧
        ∀ p showAll, (s.bootPlayer p).connectedPlayers showAll
          = (s.connectedPlayers showAll).filter fun q => q ≠ p :=
  ⟨by decide, run_players _ _ _ _ (by decide) _⟩

end

end Server

/-! ### Boots -/

/-- The connection is to be closed. -/
def Booted (nh : Nat) (s : Server) : Prop :=
  ∃ h ∈ s.allShandles, h.nhandle = nh ∧ h.disconnectMe = true

/-- The connection is closed, by the server or by the network. -/
def Output.ends (nh : Nat) : Output → Bool
  | .close n | .log .clientDisconnected _ n => n = nh
  | _ => false

/-- The connection has been closed meanwhile. -/
def Ended (nh : Nat) (s s' : Server) : Prop :=
  ∃ new, s'.outputs = s.outputs ++ new ∧ ∃ o ∈ new, o.ends nh = true

/-- A connection that is to be closed still is so, or has been closed meanwhile. -/
def Persists (nh : Nat) (s s' : Server) : Prop :=
  ∃ new, s'.outputs = s.outputs ++ new ∧
    (Booted nh s → Booted nh s' ∨ ∃ o ∈ new, o.ends nh = true)

section

variable {nh : Nat} {s s₁ s' : Server}

lemma Persists.resolve (h : Persists nh s s') (hb : Booted nh s) :
    Booted nh s' ∨ Ended nh s s' := by
  obtain ⟨new, heq, hbooted⟩ := h
  exact (hbooted hb).imp_right fun hends => ⟨new, heq, hends⟩

lemma Ended.trans_persists (h : Ended nh s s₁) (h' : Persists nh s₁ s') : Ended nh s s' := by
  obtain ⟨new, heq, o, ho, hends⟩ := h
  obtain ⟨new', heq', -⟩ := h'
  exact ⟨new ++ new', by rw [heq', heq, List.append_assoc], o, List.mem_append_left _ ho, hends⟩

lemma Persists.trans_ended (h : Persists nh s s₁) (h' : Ended nh s₁ s') : Ended nh s s' := by
  obtain ⟨new, heq, -⟩ := h
  obtain ⟨new', heq', o, ho, hends⟩ := h'
  exact ⟨new ++ new', by rw [heq', heq, List.append_assoc], o, List.mem_append_right _ ho, hends⟩

end

namespace Persists

variable {s s' s'' : Server} {os : List Output} {nh n : Nat} {f : Shandle → Shandle}

lemma refl (nh : Nat) (s : Server) : Persists nh s s := ⟨[], (List.append_nil _).symm, .inl⟩

lemma trans (h : Persists nh s s') (h' : Persists nh s' s'') : Persists nh s s'' := by
  obtain ⟨new, heq, hb⟩ := h
  obtain ⟨new', heq', hb'⟩ := h'
  refine ⟨new ++ new', by rw [heq', heq, List.append_assoc], fun hbooted => ?_⟩
  rcases hb hbooted with hb | ⟨o, ho, hends⟩
  · refine (hb' hb).imp_right ?_
    rintro ⟨o, ho, hends⟩
    exact ⟨o, List.mem_append_right _ ho, hends⟩
  · exact .inr ⟨o, List.mem_append_left _ ho, hends⟩

lemma of_booted (houtputs : s'.outputs = s.outputs) (hb : Booted nh s → Booted nh s') :
    Persists nh s s' :=
  ⟨[], by rw [houtputs, List.append_nil], fun h => .inl (hb h)⟩

lemma put (nh : Nat) (s : Server) (os : List Output) : Persists nh s (s.put os) :=
  ⟨os, rfl, .inl⟩

lemma modify (s : Server) (n : Nat) (hnh : ∀ h, (f h).nhandle = h.nhandle)
    (hd : ∀ h : Shandle, h.disconnectMe = true → (f h).disconnectMe = true) :
    Persists nh s (s.modify n f) := by
  refine of_booted rfl ?_
  rintro ⟨h, hh, hn, hbooted⟩
  refine ⟨if h.nhandle = n then f h else h, List.mem_map_of_mem hh, ?_⟩
  split_ifs with heq
  · exact ⟨(hnh h).trans hn, hd h hbooted⟩
  · exact ⟨hn, hbooted⟩

lemma modify_ne (s : Server) (hne : n ≠ nh) :
    Persists nh s (s.modify n f) := by
  refine of_booted rfl ?_
  rintro ⟨h, hh, hn, hbooted⟩
  refine ⟨h, List.mem_map.mpr ⟨h, hh, if_neg fun heq => ?_⟩, hn, hbooted⟩
  exact hne (heq.symm.trans hn)

lemma openConnection (s : Server) (l : Option Slistener) (n : Nat) (outbound : Bool)
    (time : Int) : Persists nh s (s.openConnection l n outbound time) := by
  rw [Server.openConnection]
  split_ifs with hnone
  · exact refl nh s
  · refine ⟨[_], rfl, fun hb => .inl ?_⟩
    obtain ⟨h, hh, hbooted⟩ := hb
    exact ⟨h, List.mem_cons_of_mem _ hh, hbooted⟩

lemma freeShandle (s : Server) (hne : n ≠ nh) : Persists nh s (s.freeShandle n) := by
  refine of_booted rfl ?_
  rintro ⟨h, hh, hn, hbooted⟩
  refine ⟨h, List.mem_filter.mpr ⟨hh, decide_eq_true fun heq => ?_⟩, hn, hbooted⟩
  exact hne (heq.symm.trans hn)

/-- The network closes the connection before the structure is freed. -/
lemma close (s : Server) (nh n : Nat) : Persists nh s ((s.put [.close n]).freeShandle n) := by
  by_cases hn : n = nh
  · exact ⟨[.close n], rfl, fun _ => .inr ⟨_, List.mem_singleton_self _, decide_eq_true hn⟩⟩
  · exact (put nh s [.close n]).trans (freeShandle _ hn)

lemma applyOp (s : Server) (op : MooOp) : Persists nh s (s.applyOp op) := by
  cases op with
  | boot player =>
    have hlist {s₁ : Server} {g : List (Int × Int) → List (Int × Int)} (h : Persists nh s s₁) :
        Persists nh s (if s₁.inEmergencyMode then
          { s₁ with checkpointedConnections := s₁.checkpointedConnections.map g } else s₁) := by
      split_ifs
      · exact h
      · exact h
    change Persists nh s (s.bootPlayer player)
    rw [Server.bootPlayer]
    cases s.findShandle player with
    | none => exact hlist (refl nh s)
    | some h => exact hlist (modify s h.nhandle (fun _ => rfl) fun _ _ => rfl)
  | openConnection nhandle l time => exact openConnection s l nhandle true time
  | notify player line =>
    change Persists nh s (s.notify player line)
    rw [Server.notify]
    cases (s.findShandle player).filter (!·.disconnectMe) with
    | none =>
      change Persists nh s (if s.inEmergencyMode then s.put [.emergency player line] else s)
      split_ifs
      · exact put nh s _
      · exact refl nh s
    | some h => exact put nh s _
  | setBinary player binary =>
    change Persists nh s (s.setBinary player binary)
    rw [Server.setBinary]
    cases (s.findShandle player).filter (!·.disconnectMe) with
    | none => exact refl nh s
    | some h => exact modify s h.nhandle (fun _ => rfl) fun _ hd => hd
  | database directory => exact of_booted rfl id

lemma runOps (s : Server) (ops : List MooOp) : Persists nh s (s.runOps ops) := by
  induction ops generalizing s with
  | nil => exact refl nh s
  | cons op ops ih => exact (applyOp s op).trans (ih (s.applyOp op))

lemma callNotifier (react : Reaction) (player handler : Int) (verb : Notifier) (s : Server) :
    Persists nh s (s.callNotifier react player handler verb) :=
  (put nh s _).trans (runOps _ _)

lemma sendMessageIf (b : Bool) (listener : Int) (n : Nat) (name : String) (default : List String)
    (s : Server) : Persists nh s (s.sendMessageIf b listener n name default) := by
  obtain ⟨os, heq, -⟩ := s.sendMessageIf_eq b listener n name default
  rw [heq]
  exact put nh s os

lemma serverClose (react : Reaction) (n : Nat) (s : Server) :
    Persists nh s (s.serverClose react n) := by
  rw [Server.serverClose]
  cases s.shandle n with
  | none => exact refl nh s
  | some h =>
    have hcalled (s₁ : Server) : Persists nh s₁ ((s₁.modify n fun h =>
        { h with disconnectMe := true }).callNotifier react h.player h.listener
          .userClientDisconnected) :=
      (modify (f := fun h => { h with disconnectMe := true }) s₁ n (fun _ => rfl)
        fun _ _ => rfl).trans (callNotifier _ _ _ _ _)
    by_cases hn : n = nh
    · obtain ⟨new, heq, -⟩ := hcalled (s.put [.log .clientDisconnected h.player n])
      refine ⟨.log .clientDisconnected h.player n :: new, ?_, fun _ =>
        .inr ⟨_, List.mem_cons_self, decide_eq_true hn⟩⟩
      refine heq.trans ?_
      rw [Server.outputs_put, List.append_assoc]
      rfl
    · exact ((put nh s _).trans (hcalled _)).trans (freeShandle _ hn)

lemma sweepOne (react : Reaction) (now : Int) (s : Server) (n : Nat) :
    Persists nh s (s.sweepOne react now n) := by
  rw [Server.sweepOne]
  cases s.shandle n with
  | none => exact refl nh s
  | some h =>
    have hleave (kind : LogKind) (name : String) (default : List String) (s₁ : Server) :
        Persists nh s₁ ((((s₁.put [.log kind h.player n]).sendMessageIf h.printMessages h.listener n
          name default).put [.close n]).freeShandle n) :=
      ((put nh s₁ _).trans (sendMessageIf _ _ _ _ _ _)).trans (close _ nh n)
    change Persists nh s (if Server.isTimedOut s.directory now h = true then _ else _)
    split_ifs
    · exact (callNotifier _ _ _ _ _).trans (hleave _ _ _ _)
    · exact hleave _ _ _ _
    · exact (callNotifier _ _ _ _ _).trans (hleave _ _ _ _)
    · exact refl nh s

lemma sweepEach (react : Reaction) (now : Int) (nhs : List Nat) (s : Server) :
    Persists nh s (nhs.foldl (Server.sweepOne react now) s) := by
  induction nhs generalizing s with
  | nil => exact refl nh s
  | cons n nhs ih => exact (sweepOne react now s n).trans (ih _)

/-- A login, unless the connection takes over from one of another listener. -/
lemma playerConnected {react : Reaction} {oldId newId time : Int} {isNewlyCreated : Bool}
    (hswitch : ∀ new existing, s.findShandle oldId = some new →
      s.findShandle newId = some existing → new.nhandle = nh → existing.listener = new.listener)
    (hs : s.playerConnected react oldId newId isNewlyCreated time = .ok s') :
    Persists nh s s' := by
  rw [Server.playerConnected] at hs
  cases hnew : s.findShandle oldId with
  | none => simp [hnew] at hs
  | some new =>
    have hlogin : Persists nh s (s.modify new.nhandle fun h =>
        { h with player := newId, connectionTime := time }) :=
      modify s new.nhandle (fun _ => rfl) fun _ hd => hd
    have hlog (kind : LogKind) (verb : Notifier) (name : String) (default : List String) :=
      ((hlogin.trans (put nh _ [.log kind newId new.nhandle])).trans (sendMessageIf new.printMessages
        new.listener new.nhandle name default _)).trans
          (callNotifier react newId new.listener verb _)
    rw [hnew] at hs
    cases hex : s.findShandle newId with
    | none =>
      rw [hex] at hs
      cases isNewlyCreated with
      | false =>
        obtain rfl := Except.ok.inj hs
        exact hlog .connected .userConnected _ _
      | true =>
        obtain rfl := Except.ok.inj hs
        exact hlog .created .userCreated _ _
    | some existing =>
      rw [hex] at hs
      have hclose := (((hlogin.trans (put nh _
        [.log (.redirected existing.nhandle) newId new.nhandle])).trans
          (sendMessageIf existing.printMessages existing.listener existing.nhandle
            "redirect_from_msg" ["*** Redirecting connection to new port ***"] _)).trans
          (sendMessageIf new.printMessages new.listener new.nhandle
            "redirect_to_msg" ["*** Redirecting old connection to this port ***"] _)).trans
          (close _ nh existing.nhandle)
      change (if existing.listener = new.listener then _ else _) = Except.ok s' at hs
      split_ifs at hs with hlistener
      · obtain rfl := Except.ok.inj hs
        exact hclose.trans (callNotifier _ _ _ _ _)
      · obtain rfl := Except.ok.inj hs
        have hne : new.nhandle ≠ nh := fun heq => hlistener (hswitch new existing hnew hex heq)
        exact hclose.trans ((modify_ne _ hne).trans ((callNotifier _ _ _ _ _).trans
          ((modify_ne _ hne).trans (callNotifier _ _ _ _ _))))

end Persists

section

variable {react : Reaction} {s s' : Server} {init : Int → Option Int} {nh : Nat}

/-- The round of the main loop that comes to a connection that is to be closed closes it. -/
lemma Follows.sweepOne_ends (hf : Follows init s) (hb : Booted nh s) (now : Int) :
    Ended nh s (s.sweepOne react now nh) := by
  obtain ⟨h, hh, rfl, hd⟩ := hb
  have hleave (kind : LogKind) (name : String) (default : List String) (s₁ : Server) :
      Ended h.nhandle s₁ ((((s₁.put [.log kind h.player h.nhandle]).sendMessageIf h.printMessages
        h.listener h.nhandle name default).put [.close h.nhandle]).freeShandle h.nhandle) :=
    ((Persists.put h.nhandle s₁ _).trans (Persists.sendMessageIf _ _ _ _ _ _)).trans_ended
      ⟨[.close h.nhandle], rfl, _, List.mem_singleton_self _, decide_eq_true rfl⟩
  rw [Server.sweepOne, Server.shandle_of_mem hf.sound hh]
  change Ended h.nhandle s (if Server.isTimedOut s.directory now h = true then _ else _)
  split_ifs
  · exact (Persists.callNotifier _ _ _ _ _).trans_ended (hleave _ _ _ _)
  · exact hleave _ _ _ _
  · exact (Persists.callNotifier _ _ _ _ _).trans_ended (hleave _ _ _ _)

lemma Follows.sweep_ends (hf : Follows init s) (hb : Booted nh s) (time : Int) :
    Ended nh s (s.sweep react time) := by
  have hmem : nh ∈ s.allShandles.map Shandle.nhandle := by
    obtain ⟨h, hh, hn, -⟩ := hb
    exact List.mem_map.mpr ⟨h, hh, hn⟩
  rw [Server.sweep]
  generalize s.allShandles.map Shandle.nhandle = nhs at hmem
  induction nhs generalizing s with
  | nil => exact absurd hmem List.not_mem_nil
  | cons n nhs ih =>
    rw [List.foldl_cons]
    have hrest (s₁ : Server) :
        Persists nh s₁ (nhs.foldl (Server.sweepOne react (CType.toInt32 time)) s₁) :=
      Persists.sweepEach react _ nhs s₁
    by_cases hn : n = nh
    · subst hn
      exact (hf.sweepOne_ends hb _).trans_persists (hrest _)
    · have h₁ : Persists nh s (s.sweepOne react (CType.toInt32 time) n) :=
        Persists.sweepOne react _ s n
      rcases h₁.resolve hb with hb' | hends
      · have hmem := (List.mem_cons.mp hmem).resolve_left (Ne.symm hn)
        exact h₁.trans_ended (ih (hf.sweepOne _ n) hb' hmem)
      · exact hends.trans_persists (hrest _)

/-- The connection logs in as a player who has a connection of another listener. -/
def Switches (nh : Nat) (s : Server) : ServerEvent → Prop
  | .login oldId newId _ time => s.CanLogin oldId newId time ∧ ∃ new existing,
    s.findShandle oldId = some new ∧ s.findShandle newId = some existing ∧ new.nhandle = nh ∧
      existing.listener ≠ new.listener
  | _ => False

lemma Persists.step {e : ServerEvent} (hswitch : ¬ Switches nh s e)
    (hs : s.step react e = .ok s') : Persists nh s s' := by
  cases e with
  | accept l nhandle time =>
    obtain rfl := Except.ok.inj hs
    exact openConnection s l nhandle false time
  | receive nhandle time =>
    obtain rfl := Except.ok.inj hs
    exact modify s nhandle (fun _ => rfl) fun _ hd => hd
  | clientClosed nhandle =>
    obtain rfl := Except.ok.inj hs
    exact serverClose react nhandle s
  | task ops =>
    obtain rfl := Except.ok.inj hs
    exact runOps s ops
  | login oldId newId isNewlyCreated time =>
    rw [Server.step] at hs
    split_ifs at hs with hcan
    · refine playerConnected (fun new existing hnew hex hn => ?_) hs
      by_contra hne
      exact hswitch ⟨hcan, new, existing, hnew, hex, hn, hne⟩
    · obtain rfl := Except.ok.inj hs
      exact refl nh s
  | sweep time =>
    obtain rfl := Except.ok.inj hs
    exact sweepEach react _ _ s

/-- The connection does not take over from one of another listener in the run. -/
def Spared (react : Reaction) (nh : Nat) : Server → List ServerEvent → Prop
  | _, [] => True
  | s, e :: events => ¬ Switches nh s e ∧
    ∀ s', s.step react e = .ok s' → Spared react nh s' events

lemma Server.run_cons {e : ServerEvent} {events : List ServerEvent}
    (h : s.run react (e :: events) = .ok s') :
    ∃ s₁, s.step react e = .ok s₁ ∧ s₁.run react events = .ok s' := by
  rw [run, List.foldlM_cons] at h
  cases hstep : s.step react e with
  | error msg =>
    rw [hstep] at h
    cases h
  | ok s₁ =>
    rw [hstep] at h
    exact ⟨s₁, rfl, h⟩

lemma Persists.run {events : List ServerEvent} (hspared : Spared react nh s events)
    (hrun : s.run react events = .ok s') : Persists nh s s' := by
  induction events generalizing s with
  | nil =>
    obtain rfl := Except.ok.inj hrun
    exact refl nh s
  | cons e events ih =>
    obtain ⟨s₁, hstep, hrun⟩ := Server.run_cons hrun
    exact (Persists.step hspared.1 hstep).trans (ih (hspared.2 s₁ hstep) hrun)

/-- The next round of the main loop closes the connection at the latest. -/
lemma Follows.run_ends (hf : Follows init s) (hb : Booted nh s) {events : List ServerEvent}
    (hspared : Spared react nh s events) (hsweep : ∃ time, .sweep time ∈ events)
    (hrun : s.run react events = .ok s') : Ended nh s s' := by
  induction events generalizing s with
  | nil =>
    obtain ⟨time, hmem⟩ := hsweep
    exact absurd hmem List.not_mem_nil
  | cons e events ih =>
    obtain ⟨s₁, hstep, hrun⟩ := Server.run_cons hrun
    obtain ⟨s₂, hstep₂, hf₁⟩ := hf.step react e
    obtain rfl := Except.ok.inj (hstep.symm.trans hstep₂)
    have h₁ := Persists.step hspared.1 hstep
    have hrest := Persists.run (hspared.2 s₁ hstep) hrun
    rcases h₁.resolve hb with hb' | hends
    · obtain ⟨time, hmem⟩ := hsweep
      rcases List.mem_cons.mp hmem with rfl | hmem
      · obtain rfl := Except.ok.inj hstep
        exact (hf.sweep_ends hb time).trans_persists hrest
      · exact h₁.trans_ended (ih hf₁ hb' (hspared.2 s₁ hstep) ⟨time, hmem⟩ hrun)
    · exact hends.trans_persists hrest

/-- The connection that takes over from one of another listener is open afterwards, unless code
that is told of it boots the player again. -/
lemma Follows.not_booted (hf : Follows init s) {e : ServerEvent} (hswitch : Switches nh s e)
    (hs : s.step (fun _ => []) e = .ok s') :
    ¬ Booted nh s' ∧ nh ∈ s'.allShandles.map Shandle.nhandle := by
  cases e with
  | login oldId newId isNewlyCreated time =>
    obtain ⟨hcan, new, existing, hnew, hex, rfl, hne⟩ := hswitch
    obtain ⟨hmem, hplayer⟩ := Server.mem_of_findShandle hnew
    obtain ⟨hexmem, hexplayer⟩ := Server.mem_of_findShandle hex
    rw [Server.step, if_pos hcan, Server.playerConnected, hnew, hex] at hs
    change (if existing.listener = new.listener then _ else _) = Except.ok s' at hs
    rw [if_neg hne] at hs
    obtain rfl := Except.ok.inj hs
    constructor
    · rintro ⟨h, hh, hn, hd⟩
      obtain ⟨h₁, -, rfl⟩ := List.mem_map.mp hh
      split_ifs at hn hd with heq
      exact heq hn
    · have hnh : new.nhandle ≠ existing.nhandle := by
        intro heq
        have hsame := hf.sound.eq_of_nhandle (Server.identity_mem hmem)
          (Server.identity_mem hexmem) heq
        have hplayers : new.player = existing.player := congrArg Identity.player hsame
        have hneg := hcan.1
        have hnonneg := hcan.2.2.1
        omega
      have hmem' : new.nhandle ∈ s.allShandles.map Shandle.nhandle := List.mem_map_of_mem hmem
      simp only [Server.callNotifier, Server.runOps, List.foldl_nil, Server.nhandles_modify,
        Server.allShandles_put, Server.nhandles_freeShandle, Server.allShandles_sendMessageIf,
        implies_true, List.mem_filter, hmem', hnh, ne_eq, not_false_eq_true, decide_true, and_self]
  | _ => exact hswitch.elim

/-- A connection that is to be closed is closed in the next round of the main loop at the latest,
unless it logs in as a player who has a connection of another listener. If it does, it is open
again, and `boot_player` has done nothing. -/
theorem Server.run_boots (react : Reaction) (directory : Directory) (emergency : List MooOp)
    (checkpointed : List (Int × Int)) (h : (checkpointed.map Prod.fst).Nodup)
    (events : List ServerEvent) {s : Server} {nh : Nat}
    (hrun : run react (launch react (some checkpointed) directory emergency) events = .ok s)
    (hb : Booted nh s) :
    (∀ events' s', Spared react nh s events' → (∃ time, .sweep time ∈ events') →
      s.run react events' = .ok s' → Ended nh s s') ∧
    ∀ e s', Switches nh s e → s.step (fun _ => []) e = .ok s' →
      ¬ Booted nh s' ∧ nh ∈ s'.allShandles.map Shandle.nhandle := by
  obtain ⟨s₁, hrun₁, hf⟩ := exists_run react h directory emergency events
  obtain rfl := Except.ok.inj (hrun₁.symm.trans hrun)
  exact ⟨fun events' s' hspared hsweep hrun' => hf.run_ends hb hspared hsweep hrun',
    fun e s' hswitch hs => hf.not_booted hswitch hs⟩

theorem Server.run_boots_login :
    ∃ s, run (fun _ => []) (launch (fun _ => []) (some [(5, 0)]) plainDirectory [])
        [.accept none 1 100, .login (-2) 7 false 101, .task [.boot 7]] = .ok s ∧ Booted 1 s ∧
      (∀ events' s', Spared (fun _ => []) 1 s events' → (∃ time, .sweep time ∈ events') →
        s.run (fun _ => []) events' = .ok s' → Ended 1 s s') ∧
      ∀ e s', Switches 1 s e → s.step (fun _ => []) e = .ok s' →
        ¬ Booted 1 s' ∧ 1 ∈ s'.allShandles.map Shandle.nhandle :=
  have hb : Booted 1 _ := ⟨_, List.mem_singleton_self _, rfl, rfl⟩
  ⟨_, rfl, hb, run_boots (fun _ => []) plainDirectory [] [(5, 0)] (by decide)
    [.accept none 1 100, .login (-2) 7 false 101, .task [.boot 7]] rfl hb⟩

end

end LambdaMOO
