import LambdaMOO.Network.Sessions

/-!
# Restarts

The server writes its connections into each checkpoint. A server that loads the checkpoint tells
their players that they are gone before it does anything else, so the sessions of two servers,
one after the other, are those of one.
-/

namespace LambdaMOO

open Reader

/-- The listener of a player in a list of connections. -/
def sessionOf (p : Int) (l : List (Int × Int)) : Option Int :=
  (l.find? fun c => c.1 = p).map Prod.snd

section

variable {l l' : List (Int × Int)} {c : Int × Int} {p v : Int}

lemma sessionOf_cons : sessionOf p (c :: l) = if c.1 = p then some c.2 else sessionOf p l := by
  rw [sessionOf, List.find?_cons]
  by_cases h : c.1 = p
  · simp [h]
  · simp [h, sessionOf]

lemma sessionOf_eq_none (h : p ∉ l.map Prod.fst) : sessionOf p l = none := by
  rw [sessionOf, Option.map_eq_none_iff, List.find?_eq_none]
  intro c hc heq
  exact h (List.mem_map.mpr ⟨c, hc, of_decide_eq_true heq⟩)

lemma sessionOf_eq_some_iff (h : (l.map Prod.fst).Nodup) :
    sessionOf p l = some v ↔ (p, v) ∈ l := by
  induction l with
  | nil => simp [sessionOf]
  | cons c l ih =>
    rw [List.map_cons, List.nodup_cons] at h
    rw [sessionOf_cons, List.mem_cons]
    split_ifs with hp
    · subst hp
      constructor
      · rintro ⟨⟩
        exact .inl rfl
      · rintro (heq | hmem)
        · rw [← heq]
        · exact absurd (List.mem_map_of_mem hmem) h.1
    · rw [ih h.2]
      constructor
      · exact .inr
      · rintro (rfl | hmem)
        · exact absurd rfl hp
        · exact hmem

lemma sessionOf_congr (h : (l.map Prod.fst).Nodup) (h' : (l'.map Prod.fst).Nodup)
    (heq : ∀ v, (p, v) ∈ l ↔ (p, v) ∈ l') : sessionOf p l = sessionOf p l' := by
  apply Option.ext
  intro v
  rw [sessionOf_eq_some_iff h, sessionOf_eq_some_iff h', heq]

end

/-! ### The beginning -/

/-- The list has lost connections of players that were booted. -/
structure Loses (booted : Int → Prop) (l l' : List (Int × Int)) : Prop where
  sublist : l'.Sublist l
  kept : ∀ c ∈ l, ¬ booted c.1 → c ∈ l'

/-- `eraseP` from the end of the list, as in emergency mode. -/
lemma loses_erase (l : List (Int × Int)) (p : Int) :
    Loses (· = p) l (l.reverse.eraseP fun c => c.1 = p).reverse where
  sublist := by
    have h := (List.eraseP_sublist (l := l.reverse) (p := fun c => c.1 = p)).reverse
    rwa [List.reverse_reverse] at h
  kept c hc hp := by
    rw [List.mem_reverse]
    exact (List.mem_eraseP_of_neg (by simpa using hp)).mpr (List.mem_reverse.mpr hc)

section

variable {react : Reaction} {s : Server} {init : Int → Option Int}

lemma Loses.refl (booted : Int → Prop) (l : List (Int × Int)) : Loses booted l l where
  sublist := List.Sublist.refl l
  kept _ hc _ := hc

lemma Loses.trans {booted booted' : Int → Prop} {l l' l'' : List (Int × Int)}
    (h : Loses booted l l') (h' : Loses booted' l' l'') :
    Loses (fun p => booted p ∨ booted' p) l l'' where
  sublist := h'.sublist.trans h.sublist
  kept c hc hp := h'.kept c (h.kept c hc fun hb => hp (.inl hb)) fun hb => hp (.inr hb)

/-- Only a boot in emergency mode changes the list. -/
lemma Server.loses_applyOp (s : Server) (op : MooOp) :
    Loses (fun p => op = .boot p) (s.checkpointedConnections.getD [])
      ((s.applyOp op).checkpointedConnections.getD []) := by
  cases op with
  | boot player =>
    have hsame : (s.bootPlayer player).checkpointedConnections = if s.inEmergencyMode then
        s.checkpointedConnections.map fun l =>
          (l.reverse.eraseP fun c => c.1 = player).reverse else s.checkpointedConnections := by
      rw [bootPlayer]
      cases s.findShandle player with
      | none =>
        cases s.inEmergencyMode with
        | false => rfl
        | true => rfl
      | some h =>
        cases he : s.inEmergencyMode with
        | false => simp [modify, he]
        | true => simp [modify, he]
    change Loses _ _ ((s.bootPlayer player).checkpointedConnections.getD [])
    rw [hsame]
    split_ifs with he
    · cases s.checkpointedConnections with
      | none => exact Loses.refl _ _
      | some l =>
        have h := loses_erase l player
        exact ⟨h.sublist, fun c hc hp => h.kept c hc fun heq => hp (by rw [heq])⟩
    · exact Loses.refl _ _
  | openConnection nhandle l time =>
    change Loses _ _ ((s.openConnection l nhandle true time).checkpointedConnections.getD [])
    rw [openConnection]
    split_ifs with h
    · exact Loses.refl _ _
    · exact Loses.refl _ _
  | notify player line =>
    change Loses _ _ ((s.notify player line).checkpointedConnections.getD [])
    rw [notify]
    cases (s.findShandle player).filter (!·.disconnectMe) with
    | none =>
      change Loses _ _ ((if s.inEmergencyMode then s.put [.emergency player line]
        else s).checkpointedConnections.getD [])
      split_ifs with h
      · exact Loses.refl _ _
      · exact Loses.refl _ _
    | some h => exact Loses.refl _ _
  | setBinary player binary =>
    change Loses _ _ ((s.setBinary player binary).checkpointedConnections.getD [])
    rw [setBinary]
    cases (s.findShandle player).filter (!·.disconnectMe) with
    | none => exact Loses.refl _ _
    | some h => exact Loses.refl _ _
  | database directory => exact Loses.refl _ _

lemma Server.loses_runOps (s : Server) (ops : List MooOp) :
    Loses (fun p => .boot p ∈ ops) (s.checkpointedConnections.getD [])
      ((s.runOps ops).checkpointedConnections.getD []) := by
  induction ops generalizing s with
  | nil => exact Loses.refl _ _
  | cons op ops ih =>
    have h := (s.loses_applyOp op).trans (ih (s.applyOp op))
    refine ⟨h.sublist, fun c hc hp => h.kept c hc ?_⟩
    rintro (rfl | hb)
    · exact hp List.mem_cons_self
    · exact hp (List.mem_cons_of_mem _ hb)

/-- The connections that are told to be gone. -/
def Server.left (checkpointed : Option (List (Int × Int))) (directory : Directory)
    (emergency : List MooOp) : List (Int × Int) :=
  ((Server.start checkpointed directory).runOps emergency).checkpointedConnections.getD []

/-- The players of the last checkpoint are told, one after the other. Outbound connections may
come in meanwhile. -/
lemma closes_checkpointed (react : Reaction) {l : List (Int × Int)} (hl : (l.map Prod.fst).Nodup)
    (hs : Sound s.identities s.nextUnconnectedPlayer) (hneg : ∀ i ∈ s.identities, i.player < 0)
    (ht : Tells init (fun p => sessionOf p l) s.outputs) (he : s.inEmergencyMode = false) :
    let s' := l.foldl (fun s c => s.callNotifier react c.1 c.2 .userDisconnected) s
    Sound s'.identities s'.nextUnconnectedPlayer ∧ (∀ i ∈ s'.identities, i.player < 0) ∧
      Tells init (fun _ => none) s'.outputs ∧ s'.inEmergencyMode = false := by
  induction l generalizing s with
  | nil => exact ⟨hs, hneg, ht, he⟩
  | cons c l ih =>
    rw [List.map_cons, List.nodup_cons] at hl
    have hr := Server.callNotifier_reacts react c.1 c.2 .userDisconnected hs
    have honest : (Output.notifier c.1 c.2 .userDisconnected s.allShandles).Honest := by
      refine ⟨Server.players_nodup hs, by simp [Notifier.begins], fun _ h hh _ => .inl ?_⟩
      exact (hs.numbered _ (Server.identity_mem hh)).mp (hneg _ (Server.identity_mem hh))
    have ht' := Server.callNotifier_tells react (fun p => sessionOf p l) hs ht honest fun p _ => by
        rw [session_end rfl, sessionOf_cons]
        by_cases hp : c.1 = p
        · subst hp
          simp [sessionOf_eq_none hl.1]
        · simp [hp]
    refine ih hl.2 (hr.sound hs) (fun i hi => ?_) ht' (hr.emergency.trans he)
    obtain ⟨opened, heq, hopened⟩ := hr.identities
    rw [heq] at hi
    rcases List.mem_append.mp hi with hi | hi
    · exact hopened i hi
    · exact hneg i hi

/-- When the main loop is entered every session has come to its end. -/
lemma follows_launch {checkpointed : Option (List (Int × Int))} {directory : Directory}
    {emergency : List MooOp}
    (hl : ((Server.left checkpointed directory emergency).map Prod.fst).Nodup) :
    Follows (fun p => sessionOf p (Server.left checkpointed directory emergency))
      (Server.launch react checkpointed directory emergency) := by
  have hstart : Sound (Server.start checkpointed directory).identities
      (Server.start checkpointed directory).nextUnconnectedPlayer :=
    ⟨List.nodup_nil, List.nodup_nil, fun _ hi => absurd hi List.not_mem_nil,
      fun _ hi => absurd hi List.not_mem_nil, (by decide : nothing - 1 < nothing)⟩
  have hr := Reacts.runOps hstart emergency
  obtain ⟨opened, heq, hopened⟩ := hr.identities
  have ht : Tells (fun p => sessionOf p (Server.left checkpointed directory emergency))
      (fun p => sessionOf p (Server.left checkpointed directory emergency))
      (Server.start checkpointed directory).outputs :=
    ⟨fun _ _ => rfl, fun _ ho => absurd ho List.not_mem_nil⟩
  have hneg : ∀ i ∈ ((Server.start checkpointed directory).runOps emergency).identities,
      i.player < 0 := by
    intro i hi
    rw [heq] at hi
    rcases List.mem_append.mp hi with hi | hi
    · exact hopened i hi
    · exact absurd hi List.not_mem_nil
  obtain ⟨hs, hneg, ht, he⟩ := closes_checkpointed react (s :=
    { (Server.start checkpointed directory).runOps emergency with inEmergencyMode := false })
    hl (hr.sound hstart) hneg (hr.tells ht) rfl
  refine ⟨hs, ht.congr fun p hp => (listenerOf_eq_none fun i hi => ?_).symm, he, rfl⟩
  exact ((hneg i hi).trans_le hp).ne

end

/-! ### The checkpoint -/

section

variable {σ : Type} {l : List (Int × Int)}

/-- The numbers fit the types that they are read into. -/
def FitsCheckpoint (l : List (Int × Int)) : Prop :=
  IntRange.int.Has l.length ∧ ∀ c ∈ l, IntRange.num.Has c.1 ∧ IntRange.num.Has c.2

lemma takes_dbioScxnf_opt {fc : List Fmt} {u : List Char} {a : Nat × List Field}
    (hu : '\n' ∉ u) (h : scanFormat (σ := σ) false fc u 2 [] = pure a) (s : σ) :
    Takes (dbioScxnf (.opt :: fc)) s (u ++ ['\n']) a s := by
  rw [dbioScxnf, scanFormat]
  refine Takes.bind_nil (Takes.lift (if_pos (.inl rfl))) ((takes_nextLine hu s).bind_last ?_)
  show Takes (scanFormat false fc u 2 []) s [] a s
  rw [h]
  exact Takes.pure a s

lemma takes_activeConnectionsFormat {n : Nat} (h : IntRange.int.Has n) (s : σ) :
    Takes (dbioScxnf activeConnectionsFormat) s
      (decimal n ++ " active connections with listeners\n".toList) (3, [.num n]) s := by
  have htext : decimal n ++ " active connections with listeners\n".toList
      = (decimal n ++ " active connections with listeners".toList) ++ ['\n'] := by
    rw [List.append_assoc]
    rfl
  rw [htext]
  refine takes_dbioScxnf_opt ?_ ?_ s
  · rw [List.mem_append, not_or]
    exact ⟨newline_notMem_decimal n, by decide⟩
  · exact (scanFormat_num h (by decide)).trans rfl

lemma takes_readConnection {c : Int × Int} (h : IntRange.num.Has c.1) (h' : IntRange.num.Has c.2)
    (s : σ) : Takes readConnection s (decimal c.1 ++ ' ' :: decimal c.2 ++ ['\n']) c s := by
  have hscan : scanFormat (σ := σ) false [.num .num, .space, .num .num]
      (decimal c.1 ++ ' ' :: decimal c.2) 1 [] = pure (1, [.num c.1, .num c.2]) := by
    have hdrop := dropWhile_isSpace_decimal c.2 []
    rw [List.append_nil] at hdrop
    have hnum : scanFormat (σ := σ) false [.num .num] (decimal c.2 ++ []) 1 [.num c.1]
        = scanFormat false [] [] 1 [.num c.2, .num c.1] := scanFormat_num h' rfl
    rw [List.append_nil] at hnum
    rw [scanFormat_num h rfl, scanFormat, List.dropWhile_cons_of_pos (by decide), hdrop, hnum]
    rfl
  refine Takes.bind_last (takes_dbioScxnf (by simp) ?_ hscan s) (Takes.pure c s)
  rw [List.mem_append, List.mem_cons, not_or, not_or]
  exact ⟨newline_notMem_decimal _, by decide, newline_notMem_decimal _⟩

/-- What is written is read back. -/
lemma takes_readActiveConnections (h : FitsCheckpoint l) (s : σ) :
    Takes readActiveConnections s (decimal l.length ++
      " active connections with listeners\n".toList ++
        l.flatMap fun c => decimal c.1 ++ ' ' :: decimal c.2 ++ ['\n']) (some l) s := by
  refine (takes_activeConnectionsFormat h.1 s).bind ?_
  have hlines : Takes (times readConnection l.length) s
      (l.flatMap fun c => decimal c.1 ++ ' ' :: decimal c.2 ++ ['\n']) l s := by
    rw [List.flatMap]
    refine Takes.times ?_
    rw [List.forall₂_map_left_iff, List.forall₂_same]
    exact fun c hc => takes_readConnection (h.2 c hc).1 (h.2 c hc).2 s
  exact hlines.bind_last (Takes.pure _ s)

end

/-! ### Runs -/

section

variable {s : Server} {init : Int → Option Int}

lemma Follows.activeConnections (hf : Follows init s) :
    s.activeConnections = some (s.allShandles.length,
      s.allShandles.map fun h => (h.player, h.listener)) := by
  simp [Server.activeConnections, hf.checkpointed]

lemma Server.sessionOf_activeConnections (s : Server) (p : Int) :
    sessionOf p (s.allShandles.map fun h => (h.player, h.listener))
      = listenerOf p s.identities := by
  rw [sessionOf, listenerOf, identities, List.find?_map, List.find?_map, Option.map_map,
    Option.map_map]
  rfl

/-- The main loop never stops with a panic. -/
lemma Server.exists_run (react : Reaction) {checkpointed : List (Int × Int)}
    (h : (checkpointed.map Prod.fst).Nodup) (directory : Directory) (emergency : List MooOp)
    (events : List ServerEvent) :
    ∃ s, run react (launch react (some checkpointed) directory emergency) events = .ok s ∧
      Follows (fun p => sessionOf p (left (some checkpointed) directory emergency)) s :=
  have hloses := (start (some checkpointed) directory).loses_runOps emergency
  (follows_launch (h.sublist (hloses.sublist.map Prod.fst))).run events

/-- A database without options. -/
def plainDirectory : Directory := ⟨fun _ => true, fun _ _ => none⟩

/-- What a player's code is told is one session after the other, and the last one goes on if and
only if the player has a connection. -/
theorem Server.run_sessions (react : Reaction) (directory : Directory) (emergency : List MooOp)
    (checkpointed : List (Int × Int)) (h : (checkpointed.map Prod.fst).Nodup)
    (events : List ServerEvent) :
    ∃ s, run react (launch react (some checkpointed) directory emergency) events = .ok s ∧
      ∀ p, 0 ≤ p →
        (session p).run (sessionOf p (left (some checkpointed) directory emergency)) s.outputs
          = some (listenerOf p s.identities) := by
  obtain ⟨s, hrun, hf⟩ := exists_run react h directory emergency events
  exact ⟨s, hrun, hf.tells.sessions⟩

theorem Server.run_sessions_login :
    ([((5 : Int), (0 : Int))].map Prod.fst).Nodup ∧
      ∃ s, run (fun _ => []) (launch (fun _ => []) (some [(5, 0)]) plainDirectory [])
        [.accept none 1 100, .login (-2) 7 false 101] = .ok s ∧
      ∀ p, 0 ≤ p →
        (session p).run (sessionOf p (left (some [(5, 0)]) plainDirectory [])) s.outputs
          = some (listenerOf p s.identities) :=
  ⟨by decide, run_sessions _ _ _ _ (by decide) _⟩

end

end LambdaMOO
