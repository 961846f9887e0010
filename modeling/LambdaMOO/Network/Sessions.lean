import Mathlib.Data.List.Nodup
import LambdaMOO.Lib.Monitor
import LambdaMOO.Network.Connections

/-!
# Sessions

What the code of the database is told about a player is one session after the other: each begins
with `user_connected` or `user_created`, and ends before the next one begins. The handler that
is told is always the listener of the connection that the player has then.
-/

namespace LambdaMOO

/-! ### Identities -/

/-- The part of a structure that changes only when the connection logs in. -/
structure Identity where
  nhandle : Nat
  player : Int
  listener : Int
  connectionTime : Int

def Shandle.identity (h : Shandle) : Identity :=
  ⟨h.nhandle, h.player, h.listener, h.connectionTime⟩

def Server.identities (s : Server) : List Identity := s.allShandles.map Shandle.identity

/-- Every player has one connection at most, a connection has a player that is not negative once
it has logged in, and the number for the next connection is new. -/
structure Sound (ids : List Identity) (next : Int) : Prop where
  players : (ids.map Identity.player).Nodup
  nhandles : (ids.map Identity.nhandle).Nodup
  numbered : ∀ i ∈ ids, i.player < 0 ↔ i.connectionTime = 0
  fresh : ∀ i ∈ ids, next < i.player
  low : next < nothing

/-- The listener of the connection of a player. -/
def listenerOf (p : Int) (ids : List Identity) : Option Int :=
  (ids.find? fun i => i.player = p).map Identity.listener

/-- A connection logs in. -/
def Identity.login (nhandle : Nat) (player connectionTime : Int) (i : Identity) : Identity :=
  if i.nhandle = nhandle then { i with player, connectionTime } else i

@[simp] lemma Identity.nhandle_login (nhandle : Nat) (player connectionTime : Int)
    (i : Identity) : (i.login nhandle player connectionTime).nhandle = i.nhandle := by
  rw [Identity.login]
  split_ifs with h
  · rfl
  · rfl

section

variable {ids opened : List Identity} {i : Identity} {next p l time : Int} {nh : Nat}

lemma Sound.sublist (h : Sound ids next) {ids' : List Identity} (hs : ids'.Sublist ids) :
    Sound ids' next where
  players := h.players.sublist (hs.map _)
  nhandles := h.nhandles.sublist (hs.map _)
  numbered i hi := h.numbered i (hs.subset hi)
  fresh i hi := h.fresh i (hs.subset hi)
  low := h.low

lemma Sound.cons (h : Sound ids next) (hnew : ∀ i ∈ ids, i.nhandle ≠ nh) :
    Sound (⟨nh, next, l, 0⟩ :: ids) (next - 1) where
  players := by
    rw [List.map_cons, List.nodup_cons]
    refine ⟨fun hmem => ?_, h.players⟩
    obtain ⟨i, hi, heq⟩ := List.mem_map.mp hmem
    exact absurd heq (h.fresh i hi).ne'
  nhandles := by
    rw [List.map_cons, List.nodup_cons]
    refine ⟨fun hmem => ?_, h.nhandles⟩
    obtain ⟨i, hi, heq⟩ := List.mem_map.mp hmem
    exact hnew i hi heq
  numbered := by
    intro i hi
    rcases List.mem_cons.mp hi with rfl | hi
    · exact iff_of_true (lt_trans h.low (by decide)) rfl
    · exact h.numbered i hi
  fresh := by
    intro i hi
    rcases List.mem_cons.mp hi with rfl | hi
    · exact Int.sub_one_lt_iff.mpr le_rfl
    · exact (Int.sub_one_lt_iff.mpr le_rfl).trans (h.fresh i hi)
  low := (Int.sub_one_lt_iff.mpr le_rfl).trans h.low

lemma Sound.eq_of_player (h : Sound ids next) {j : Identity} (hi : i ∈ ids) (hj : j ∈ ids)
    (heq : i.player = j.player) : i = j :=
  List.inj_on_of_nodup_map h.players hi hj heq

lemma Sound.eq_of_nhandle (h : Sound ids next) {j : Identity} (hi : i ∈ ids) (hj : j ∈ ids)
    (heq : i.nhandle = j.nhandle) : i = j :=
  List.inj_on_of_nodup_map h.nhandles hi hj heq

lemma Sound.login (nh : Nat) (h : Sound ids next) (hp : 0 ≤ p) (htime : time ≠ 0)
    (hfree : ∀ j ∈ ids, j.player ≠ p) :
    Sound (ids.map (Identity.login nh p time)) next where
  players := by
    rw [List.map_map]
    refine List.Nodup.map_on ?_ h.nhandles.of_map
    intro j hj k hk heq
    simp only [Function.comp_apply, Identity.login] at heq
    split_ifs at heq with hjn hkn hkn
    · exact h.eq_of_nhandle hj hk (hjn.trans hkn.symm)
    · exact absurd heq.symm (hfree k hk)
    · exact absurd heq (hfree j hj)
    · exact h.eq_of_player hj hk heq
  nhandles := by
    have hmap : Identity.nhandle ∘ Identity.login nh p time = Identity.nhandle :=
      funext fun j => j.nhandle_login nh p time
    rw [List.map_map, hmap]
    exact h.nhandles
  numbered := by
    intro k hk
    obtain ⟨j, hj, rfl⟩ := List.mem_map.mp hk
    rw [Identity.login]
    split_ifs with hjn
    · exact iff_of_false (not_lt.mpr hp) htime
    · exact h.numbered j hj
  fresh := by
    intro k hk
    obtain ⟨j, hj, rfl⟩ := List.mem_map.mp hk
    rw [Identity.login]
    split_ifs with hjn
    · exact (h.low.trans (by decide)).trans_le hp
    · exact h.fresh j hj
  low := h.low

lemma listenerOf_append (hneg : ∀ i ∈ opened, i.player < 0) (hp : 0 ≤ p) :
    listenerOf p (opened ++ ids) = listenerOf p ids := by
  have hnone : opened.find? (fun i => i.player = p) = none := by
    rw [List.find?_eq_none]
    intro i hi heq
    have := hneg i hi
    have := of_decide_eq_true heq
    omega
  rw [listenerOf, List.find?_append, hnone, Option.none_or]
  rfl

lemma listenerOf_eq_none (h : ∀ i ∈ ids, i.player ≠ p) : listenerOf p ids = none := by
  rw [listenerOf, Option.map_eq_none_iff, List.find?_eq_none]
  intro i hi heq
  exact h i hi (of_decide_eq_true heq)

lemma mem_of_listenerOf (h : listenerOf p ids = some l) :
    ∃ i ∈ ids, i.player = p ∧ i.listener = l := by
  obtain ⟨i, hfind, hl⟩ := Option.map_eq_some_iff.mp h
  have hplayer := List.find?_some hfind
  exact ⟨i, List.mem_of_find?_eq_some hfind, of_decide_eq_true hplayer, hl⟩

lemma Sound.listenerOf_eq_some_iff (h : Sound ids next) :
    listenerOf p ids = some l ↔ ∃ i ∈ ids, i.player = p ∧ i.listener = l := by
  constructor
  · exact mem_of_listenerOf
  · rintro ⟨i, hi, hplayer, rfl⟩
    cases hof : listenerOf p ids with
    | none =>
      rw [listenerOf, Option.map_eq_none_iff, List.find?_eq_none] at hof
      exact absurd (decide_eq_true hplayer) (hof i hi)
    | some l =>
      obtain ⟨j, hj, hplayer', rfl⟩ := mem_of_listenerOf hof
      rw [h.eq_of_player hj hi (hplayer'.trans hplayer.symm)]

lemma Sound.listenerOf_eq (h : Sound ids next) (hi : i ∈ ids) :
    listenerOf i.player ids = some i.listener :=
  h.listenerOf_eq_some_iff.mpr ⟨i, hi, rfl, rfl⟩

/-- A connection is gone. -/
lemma Sound.listenerOf_filter (h : Sound ids next) (hi : i ∈ ids) (p : Int) :
    listenerOf p (ids.filter fun j => j.nhandle ≠ i.nhandle)
      = if p = i.player then none else listenerOf p ids := by
  split_ifs with hp
  · apply listenerOf_eq_none
    intro j hj heq
    obtain ⟨hj, hne⟩ := List.mem_filter.mp hj
    rw [h.eq_of_player hj hi (heq.trans hp)] at hne
    simp at hne
  · apply Option.ext
    intro l
    rw [(h.sublist List.filter_sublist).listenerOf_eq_some_iff, h.listenerOf_eq_some_iff]
    constructor
    · rintro ⟨j, hj, hplayer⟩
      exact ⟨j, (List.mem_filter.mp hj).1, hplayer⟩
    · rintro ⟨j, hj, hplayer, hl⟩
      refine ⟨j, List.mem_filter.mpr ⟨hj, decide_eq_true fun heq => hp ?_⟩, hplayer, hl⟩
      rw [← hplayer, h.eq_of_nhandle hj hi heq]

/-- A connection has logged in. -/
lemma Sound.listenerOf_login (h : Sound ids next) (hi : i ∈ ids) (hold : i.player < 0)
    (hp : 0 ≤ p) (htime : time ≠ 0) (hfree : ∀ j ∈ ids, j.player ≠ p) {q : Int} (hq : 0 ≤ q) :
    listenerOf q (ids.map (Identity.login i.nhandle p time))
      = if q = p then some i.listener else listenerOf q ids := by
  have hlogin := h.login i.nhandle hp htime hfree
  have himage : Identity.login i.nhandle p time i
      = { i with player := p, connectionTime := time } := if_pos rfl
  split_ifs with hqp
  · rw [hlogin.listenerOf_eq_some_iff]
    exact ⟨_, List.mem_map_of_mem hi, by rw [himage, hqp], by rw [himage]⟩
  · apply Option.ext
    intro l
    rw [hlogin.listenerOf_eq_some_iff, h.listenerOf_eq_some_iff]
    constructor
    · rintro ⟨k, hk, hplayer, hl⟩
      obtain ⟨j, hj, rfl⟩ := List.mem_map.mp hk
      rw [Identity.login] at hplayer hl
      split_ifs at hplayer hl with hjn
      · exact absurd hplayer.symm hqp
      · exact ⟨j, hj, hplayer, hl⟩
    · rintro ⟨j, hj, hplayer, hl⟩
      have hne : j.nhandle ≠ i.nhandle := by
        intro heq
        rw [h.eq_of_nhandle hj hi heq] at hplayer
        omega
      have hsame : Identity.login i.nhandle p time j = j := if_neg hne
      exact ⟨j, by simpa [hsame] using List.mem_map_of_mem (f := Identity.login i.nhandle p time) hj,
        hplayer, hl⟩

end

/-! ### What can be seen from outside -/

/-- What is told at the beginning of a session. -/
def Notifier.begins : Notifier → Bool
  | .userConnected | .userCreated | .userReconnected => true
  | .userDisconnected | .userClientDisconnected => false

/-- A player logs in and out by turns, and is told so with the listener of the connection. The
player of a connection that is recycled is told nothing. -/
def session (p : Int) : Monitor (Option Int) Output where
  next
    | s, .notifier player handler verb _ =>
      if player ≠ p then some s
      else match verb with
        | .userConnected | .userCreated => if s = none then some (some handler) else none
        | .userReconnected => if s = some handler then some s else none
        | .userDisconnected | .userClientDisconnected =>
          if s = some handler then some none else none
    | s, .log .recycled player _ =>
      if player ≠ p then some s else if s = none then none else some none
    | s, _ => some s

/-- No session begins or ends. -/
def Output.isQuiet : Output → Bool
  | .notifier .. | .log .recycled _ _ => false
  | _ => true

/-- What the code of the database finds when it is told something: each player has one
connection, a session has begun with the connection of the player, and `connected_players` does
not have the player any more at the end of it. -/
def Output.Honest : Output → Prop
  | .notifier player handler verb handles =>
    (handles.map Shandle.player).Nodup ∧
      (verb.begins = true → ∃ h ∈ handles, h.player = player ∧ h.listener = handler ∧
        h.connectionTime ≠ 0) ∧
      (verb.begins = false → ∀ h ∈ handles, h.player = player →
        h.connectionTime = 0 ∨ h.disconnectMe = true)
  | _ => True

lemma session_ignores {p : Int} {o : Output} (h : o.isQuiet = true) : (session p).Ignores o := by
  intro s
  cases o with
  | notifier => cases h
  | log kind =>
    cases kind with
    | recycled => cases h
    | _ => rfl
  | _ => rfl

lemma Output.isQuiet_log {kind : LogKind} (h : kind ≠ .recycled) (player : Int) (nh : Nat) :
    (Output.log kind player nh).isQuiet = true := by
  cases kind with
  | recycled => exact absurd rfl h
  | _ => rfl

lemma Output.honest_of_isQuiet {o : Output} (h : o.isQuiet = true) : o.Honest := by
  cases o with
  | notifier => cases h
  | _ => trivial

/-- The trace is one of sessions that begin with `init` and have come to `view`. -/
structure Tells (init view : Int → Option Int) (os : List Output) : Prop where
  sessions : ∀ p, 0 ≤ p → (session p).run (init p) os = some (view p)
  honest : ∀ o ∈ os, o.Honest

section

variable {init view view' : Int → Option Int} {os new : List Output} {o : Output}

lemma Tells.quiet (h : Tells init view os) (hnew : ∀ o ∈ new, o.isQuiet = true) :
    Tells init view (os ++ new) where
  sessions p hp := Monitor.run_trans (h.sessions p hp)
    (Monitor.run_of_ignores (fun o ho => session_ignores (hnew o ho)) _)
  honest o ho := by
    rcases List.mem_append.mp ho with ho | ho
    · exact h.honest o ho
    · exact o.honest_of_isQuiet (hnew o ho)

lemma Tells.snoc (h : Tells init view os) (ho : o.Honest)
    (hnext : ∀ p, 0 ≤ p → (session p).next (view p) o = some (view' p)) :
    Tells init view' (os ++ [o]) where
  sessions p hp := Monitor.run_trans (h.sessions p hp) (by simp [hnext p hp])
  honest o' ho' := by
    rcases List.mem_append.mp ho' with ho' | ho'
    · exact h.honest o' ho'
    · rw [List.mem_singleton.mp ho']
      exact ho

lemma Tells.congr (h : Tells init view os) (heq : ∀ p, 0 ≤ p → view p = view' p) :
    Tells init view' os where
  sessions p hp := (h.sessions p hp).trans (congrArg some (heq p hp))
  honest := h.honest

end

/-! ### Steps in which no session begins or ends -/

/-- Connections may have been opened, and lines may have been sent. -/
structure Reacts (s s' : Server) : Prop where
  identities : ∃ opened, s'.identities = opened ++ s.identities ∧ ∀ i ∈ opened, i.player < 0
  sound : Sound s.identities s.nextUnconnectedPlayer →
    Sound s'.identities s'.nextUnconnectedPlayer
  outputs : ∃ new, s'.outputs = s.outputs ++ new ∧ ∀ o ∈ new, o.isQuiet = true
  emergency : s'.inEmergencyMode = s.inEmergencyMode
  checkpointed : s.inEmergencyMode = false →
    s'.checkpointedConnections = s.checkpointedConnections

namespace Server

section

variable {s s' : Server} {os : List Output} {nh : Nat} {f : Shandle → Shandle} {p : Int}

@[simp] lemma identities_put (s : Server) (os : List Output) :
    (s.put os).identities = s.identities := rfl

@[simp] lemma outputs_put (s : Server) (os : List Output) :
    (s.put os).outputs = s.outputs ++ os := rfl

@[simp] lemma nextUnconnectedPlayer_put (s : Server) (os : List Output) :
    (s.put os).nextUnconnectedPlayer = s.nextUnconnectedPlayer := rfl

lemma put_put (s : Server) (os os' : List Output) : (s.put os).put os' = s.put (os ++ os') := by
  rw [put, put, put, List.append_assoc]

lemma identities_modify (hf : ∀ h, (f h).identity = h.identity) :
    (s.modify nh f).identities = s.identities := by
  rw [identities, identities, modify, List.map_map]
  apply List.map_congr_left
  intro h _
  rw [Function.comp_apply]
  split_ifs with hnh
  · exact hf h
  · rfl

lemma identities_login (s : Server) (nh : Nat) (player time : Int) :
    (s.modify nh fun h => { h with player, connectionTime := time }).identities
      = s.identities.map (Identity.login nh player time) := by
  rw [identities, identities, modify, List.map_map, List.map_map]
  apply List.map_congr_left
  intro h _
  rw [Function.comp_apply, Function.comp_apply, Identity.login]
  by_cases hnh : h.nhandle = nh
  · rw [if_pos hnh, if_pos (show h.identity.nhandle = nh from hnh)]
    rfl
  · rw [if_neg hnh, if_neg (show h.identity.nhandle ≠ nh from hnh)]

lemma identities_freeShandle (s : Server) (nh : Nat) :
    (s.freeShandle nh).identities = s.identities.filter fun i => i.nhandle ≠ nh := by
  rw [identities, identities, freeShandle, List.filter_map]
  rfl

lemma mem_of_shandle {h : Shandle} (hs : s.shandle nh = some h) :
    h ∈ s.allShandles ∧ h.nhandle = nh := by
  have hnh := List.find?_some hs
  exact ⟨List.mem_of_find?_eq_some hs, of_decide_eq_true hnh⟩

lemma mem_of_findShandle {h : Shandle} (hs : s.findShandle p = some h) :
    h ∈ s.allShandles ∧ h.player = p := by
  have hp := List.find?_some hs
  exact ⟨List.mem_of_find?_eq_some hs, of_decide_eq_true hp⟩

lemma identity_mem {h : Shandle} (hs : h ∈ s.allShandles) : h.identity ∈ s.identities :=
  List.mem_map_of_mem hs

/-- `send_message` writes lines. -/
lemma sendMessageIf_eq (b : Bool) (listener : Int) (nh : Nat) (name : String)
    (default : List String) (s : Server) :
    ∃ os, s.sendMessageIf b listener nh name default = s.put os ∧ ∀ o ∈ os, o.isQuiet = true := by
  rw [sendMessageIf]
  split_ifs with hb
  · refine ⟨_, rfl, fun o ho => ?_⟩
    obtain ⟨text, -, rfl⟩ := List.mem_map.mp ho
    rfl
  · refine ⟨[], ?_, by simp⟩
    rw [put, List.append_nil]

lemma nhandles_modify (s : Server) (n : Nat) (hf : ∀ h, (f h).nhandle = h.nhandle) :
    (s.modify n f).allShandles.map Shandle.nhandle = s.allShandles.map Shandle.nhandle := by
  rw [modify, List.map_map]
  apply List.map_congr_left
  intro h _
  rw [Function.comp_apply]
  split_ifs with hn
  · exact hf h
  · rfl

lemma nhandles_freeShandle (s : Server) (n : Nat) :
    (s.freeShandle n).allShandles.map Shandle.nhandle
      = (s.allShandles.map Shandle.nhandle).filter fun nh => nh ≠ n := by
  rw [freeShandle, List.filter_map]
  rfl

@[simp] lemma allShandles_put (s : Server) (os : List Output) :
    (s.put os).allShandles = s.allShandles := rfl

@[simp] lemma allShandles_sendMessageIf (b : Bool) (listener : Int) (nh : Nat) (name : String)
    (default : List String) (s : Server) :
    (s.sendMessageIf b listener nh name default).allShandles = s.allShandles := by
  obtain ⟨os, heq, -⟩ := s.sendMessageIf_eq b listener nh name default
  rw [heq, allShandles_put]

end

end Server

namespace Reacts

variable {s s' s'' : Server} {os : List Output} {nh : Nat} {f : Shandle → Shandle}

lemma refl (s : Server) : Reacts s s where
  identities := ⟨[], rfl, by simp⟩
  sound := id
  outputs := ⟨[], (List.append_nil _).symm, by simp⟩
  emergency := rfl
  checkpointed _ := rfl

lemma trans (h : Reacts s s') (h' : Reacts s' s'') : Reacts s s'' where
  identities := by
    obtain ⟨opened, heq, hneg⟩ := h.identities
    obtain ⟨opened', heq', hneg'⟩ := h'.identities
    refine ⟨opened' ++ opened, by rw [heq', heq, List.append_assoc], fun i hi => ?_⟩
    rcases List.mem_append.mp hi with hi | hi
    · exact hneg' i hi
    · exact hneg i hi
  sound hs := h'.sound (h.sound hs)
  outputs := by
    obtain ⟨new, heq, hquiet⟩ := h.outputs
    obtain ⟨new', heq', hquiet'⟩ := h'.outputs
    refine ⟨new ++ new', by rw [heq', heq, List.append_assoc], fun o ho => ?_⟩
    rcases List.mem_append.mp ho with ho | ho
    · exact hquiet o ho
    · exact hquiet' o ho
  emergency := h'.emergency.trans h.emergency
  checkpointed he := (h'.checkpointed (h.emergency.trans he)).trans (h.checkpointed he)

lemma put (s : Server) (h : ∀ o ∈ os, o.isQuiet = true) : Reacts s (s.put os) where
  identities := ⟨[], rfl, by simp⟩
  sound := id
  outputs := ⟨os, rfl, h⟩
  emergency := rfl
  checkpointed _ := rfl

lemma modify (s : Server) (nh : Nat) (hf : ∀ h, (f h).identity = h.identity) :
    Reacts s (s.modify nh f) where
  identities := ⟨[], Server.identities_modify hf, by simp⟩
  sound hs := by
    rw [Server.identities_modify hf]
    exact hs
  outputs := ⟨[], (List.append_nil _).symm, by simp⟩
  emergency := rfl
  checkpointed _ := rfl

lemma openConnection (s : Server) (l : Option Slistener) (nh : Nat) (outbound : Bool)
    (time : Int) (hs : Sound s.identities s.nextUnconnectedPlayer) :
    Reacts s (s.openConnection l nh outbound time) := by
  rw [Server.openConnection]
  split_ifs with hnone
  · exact refl s
  · refine ⟨⟨[_], rfl, ?_⟩, fun hs => ?_, ⟨[_], rfl, ?_⟩, rfl, fun _ => rfl⟩
    · intro i hi
      rw [List.mem_singleton.mp hi]
      exact hs.low.trans (by decide)
    · refine hs.cons fun i hi heq => ?_
      obtain ⟨h, hh, rfl⟩ := List.mem_map.mp hi
      rw [Option.not_isSome_iff_eq_none, Server.shandle, List.find?_eq_none] at hnone
      exact hnone h hh (decide_eq_true heq)
    · intro o ho
      rw [List.mem_singleton.mp ho]
      cases outbound with
      | false => rfl
      | true => rfl

lemma bootPlayer (s : Server) (player : Int) : Reacts s (s.bootPlayer player) := by
  have hlist {s₁ : Server} {f : List (Int × Int) → List (Int × Int)} (h : Reacts s s₁) :
      Reacts s (if s₁.inEmergencyMode then
        { s₁ with checkpointedConnections := s₁.checkpointedConnections.map f } else s₁) := by
    split_ifs with he
    · exact ⟨h.identities, h.sound, h.outputs, h.emergency, fun hs =>
        absurd (h.emergency.symm.trans he) (by simp [hs])⟩
    · exact h
  rw [Server.bootPlayer]
  cases s.findShandle player with
  | none => exact hlist (refl s)
  | some h => exact hlist (modify s h.nhandle fun _ => rfl)

lemma notify (s : Server) (player : Int) (message : String) :
    Reacts s (s.notify player message) := by
  rw [Server.notify]
  cases (s.findShandle player).filter (!·.disconnectMe) with
  | none =>
    change Reacts s (if s.inEmergencyMode then s.put [.emergency player message] else s)
    split_ifs with he
    · exact put s fun o ho => by rw [List.mem_singleton.mp ho]; rfl
    · exact refl s
  | some h => exact put s fun o ho => by rw [List.mem_singleton.mp ho]; rfl

lemma setBinary (s : Server) (player : Int) (binary : Bool) :
    Reacts s (s.setBinary player binary) := by
  rw [Server.setBinary]
  cases (s.findShandle player).filter (!·.disconnectMe) with
  | none => exact refl s
  | some h => exact modify s h.nhandle fun _ => rfl

lemma applyOp (hs : Sound s.identities s.nextUnconnectedPlayer) (op : MooOp) :
    Reacts s (s.applyOp op) := by
  cases op with
  | boot player => exact bootPlayer s player
  | openConnection nhandle l time => exact openConnection s l nhandle true time hs
  | notify player line => exact notify s player line
  | setBinary player binary => exact setBinary s player binary
  | database directory => exact ⟨(refl s).identities, id, (refl s).outputs, rfl, fun _ => rfl⟩

lemma runOps (hs : Sound s.identities s.nextUnconnectedPlayer) (ops : List MooOp) :
    Reacts s (s.runOps ops) := by
  induction ops generalizing s with
  | nil => exact refl s
  | cons op ops ih =>
    have h := applyOp hs op
    exact h.trans (ih (h.sound hs))

lemma sendMessageIf (s : Server) (b : Bool) (listener : Int) (nh : Nat) (name : String)
    (default : List String) : Reacts s (s.sendMessageIf b listener nh name default) := by
  obtain ⟨os, heq, hquiet⟩ := s.sendMessageIf_eq b listener nh name default
  rw [heq]
  exact put s hquiet

lemma listenerOf_eq (h : Reacts s s') {p : Int} (hp : 0 ≤ p) :
    listenerOf p s'.identities = listenerOf p s.identities := by
  obtain ⟨opened, heq, hneg⟩ := h.identities
  rw [heq, listenerOf_append hneg hp]

lemma mem (h : Reacts s s') {i : Identity} (hi : i ∈ s.identities) : i ∈ s'.identities := by
  obtain ⟨opened, heq, -⟩ := h.identities
  rw [heq]
  exact List.mem_append_right _ hi

lemma tells (h : Reacts s s') {init view : Int → Option Int} (ht : Tells init view s.outputs) :
    Tells init view s'.outputs := by
  obtain ⟨new, heq, hquiet⟩ := h.outputs
  rw [heq]
  exact ht.quiet hquiet

end Reacts

/-! ### Notifiers -/

section

variable {react : Reaction} {s s' : Server} {init view view' : Int → Option Int}
  {player handler : Int} {verb : Notifier}

/-- The notifier is called, and its code runs. -/
lemma Server.callNotifier_reacts (react : Reaction) (player handler : Int) (verb : Notifier)
    (hs : Sound s.identities s.nextUnconnectedPlayer) :
    Reacts (s.put [.notifier player handler verb s.allShandles])
      (s.callNotifier react player handler verb) :=
  Reacts.runOps (s := s.put [.notifier player handler verb s.allShandles]) hs _

lemma Server.callNotifier_tells (react : Reaction) (view' : Int → Option Int)
    (hs : Sound s.identities s.nextUnconnectedPlayer)
    (ht : Tells init view s.outputs)
    (honest : (Output.notifier player handler verb s.allShandles).Honest)
    (hnext : ∀ p, 0 ≤ p → (session p).next (view p)
      (.notifier player handler verb s.allShandles) = some (view' p)) :
    Tells init view' (s.callNotifier react player handler verb).outputs :=
  (callNotifier_reacts react player handler verb hs).tells (ht.snoc honest hnext)

/-- What a notifier at the end of a session does to the session. -/
lemma session_end {p : Int} {v : Option Int} {handles : List Shandle}
    (hverb : verb.begins = false) :
    (session p).next v (.notifier player handler verb handles)
      = if player ≠ p then some v else if v = some handler then some none else none := by
  cases verb with
  | userDisconnected => rfl
  | userClientDisconnected => rfl
  | _ => cases hverb

variable {h : Shandle}

lemma Server.players_nodup (hs : Sound s.identities s.nextUnconnectedPlayer) :
    (s.allShandles.map Shandle.player).Nodup := by
  have hplayers := hs.players
  rw [Server.identities, List.map_map] at hplayers
  exact hplayers

lemma Server.honest_end (hs : Sound s.identities s.nextUnconnectedPlayer) (handler : Int)
    (hh : h ∈ s.allShandles) (hd : h.connectionTime = 0 ∨ h.disconnectMe = true)
    (hverb : verb.begins = false) :
    (Output.notifier h.player handler verb s.allShandles).Honest := by
  refine ⟨players_nodup hs, fun hb => absurd hb (by simp [hverb]), fun _ h' hh' hp => ?_⟩
  rw [List.inj_on_of_nodup_map (players_nodup hs) hh' hh hp]
  exact hd

lemma Server.honest_begin (hs : Sound s.identities s.nextUnconnectedPlayer) {i : Identity}
    (hi : i ∈ s.identities) (hp : 0 ≤ i.player) (hverb : verb.begins = true) :
    (Output.notifier i.player i.listener verb s.allShandles).Honest := by
  refine ⟨players_nodup hs, fun _ => ?_, fun hb => absurd hb (by simp [hverb])⟩
  obtain ⟨h, hh, rfl⟩ := List.mem_map.mp hi
  exact ⟨h, hh, rfl, rfl, fun htime => absurd ((hs.numbered _ hi).mpr htime) (not_lt.mpr hp)⟩

/-! ### Steps -/

/-- The main loop is between two steps, and every session is that of a connection. -/
structure Follows (init : Int → Option Int) (s : Server) : Prop where
  sound : Sound s.identities s.nextUnconnectedPlayer
  tells : Tells init (fun p => listenerOf p s.identities) s.outputs
  emergency : s.inEmergencyMode = false
  checkpointed : s.checkpointedConnections = none

namespace Follows

lemma reacts (hf : Follows init s) (hr : Reacts s s') : Follows init s' where
  sound := hr.sound hf.sound
  tells := (hr.tells hf.tells).congr fun _ hp => (hr.listenerOf_eq hp).symm
  emergency := hr.emergency.trans hf.emergency
  checkpointed := (hr.checkpointed hf.emergency).trans hf.checkpointed

/-- The connection is given up, after its session has ended. -/
lemma free (hs : Sound s.identities s.nextUnconnectedPlayer) (hh : h.identity ∈ s.identities)
    (ht : Tells init (fun p => if p = h.player then none else listenerOf p s.identities) s.outputs)
    (he : s.inEmergencyMode = false) (hc : s.checkpointedConnections = none) :
    Follows init (s.freeShandle h.nhandle) where
  sound := by
    rw [Server.identities_freeShandle]
    exact hs.sublist List.filter_sublist
  tells := ht.congr fun p _ => by
    rw [Server.identities_freeShandle]
    exact (hs.listenerOf_filter hh p).symm
  emergency := he
  checkpointed := hc

/-- The player is told that the session ends, and the connection is given up. -/
lemma close (hf : Follows init s) (hh : h ∈ s.allShandles)
    (hd : h.connectionTime = 0 ∨ h.disconnectMe = true) (hverb : verb.begins = false)
    (hr : Reacts (s.callNotifier react h.player h.listener verb) s') :
    Follows init (s'.freeShandle h.nhandle) := by
  have hlistener : listenerOf h.player s.identities = some h.listener :=
    hf.sound.listenerOf_eq (Server.identity_mem hh)
  have hcalled :=
    (Server.callNotifier_reacts react h.player h.listener verb hf.sound).trans hr
  have ht := Server.callNotifier_tells react
    (fun p => if p = h.player then none else listenerOf p s.identities) hf.sound hf.tells
    (Server.honest_end hf.sound h.listener hh hd hverb) fun p hp => by
      rw [session_end hverb]
      by_cases heq : p = h.player
      · subst heq
        simp [hlistener]
      · simp [heq, Ne.symm heq]
  refine free (hcalled.sound hf.sound) (hcalled.mem (Server.identity_mem hh))
    ((hr.tells ht).congr fun p hp => ?_) (hcalled.emergency.trans hf.emergency)
    ((hcalled.checkpointed hf.emergency).trans hf.checkpointed)
  rw [hcalled.listenerOf_eq hp]
  rfl

/-- The connection is given up, and the player is told nothing. -/
lemma recycle (hf : Follows init s) (hh : h ∈ s.allShandles)
    (hr : Reacts (s.put [.log .recycled h.player h.nhandle]) s') :
    Follows init (s'.freeShandle h.nhandle) := by
  have hlistener : listenerOf h.player s.identities = some h.listener :=
    hf.sound.listenerOf_eq (Server.identity_mem hh)
  have ht : Tells init (fun p => if p = h.player then none else listenerOf p s.identities)
      (s.outputs ++ [.log .recycled h.player h.nhandle]) :=
    hf.tells.snoc trivial fun p hp => by
      by_cases heq : p = h.player
      · subst heq
        simp [session, hlistener]
      · simp [session, heq, Ne.symm heq]
  refine free (hr.sound hf.sound) (hr.mem (Server.identity_mem hh))
    ((hr.tells ht).congr fun p hp => ?_) (hr.emergency.trans hf.emergency)
    ((hr.checkpointed hf.emergency).trans hf.checkpointed)
  rw [hr.listenerOf_eq hp]
  rfl

lemma serverClose (hf : Follows init s) (nh : Nat) : Follows init (s.serverClose react nh) := by
  rw [Server.serverClose]
  cases hs : s.shandle nh with
  | none => exact hf
  | some h =>
    obtain ⟨hh, rfl⟩ := Server.mem_of_shandle hs
    have hr : Reacts s ((s.put [.log .clientDisconnected h.player h.nhandle]).modify h.nhandle
        fun h => { h with disconnectMe := true }) :=
      (Reacts.put s fun o ho => by rw [List.mem_singleton.mp ho]; rfl).trans
        (Reacts.modify _ h.nhandle fun _ => rfl)
    have hmem : { h with disconnectMe := true } ∈ (((s.put [.log .clientDisconnected h.player
        h.nhandle]).modify h.nhandle fun h => { h with disconnectMe := true }).allShandles) :=
      List.mem_map.mpr ⟨h, hh, if_pos rfl⟩
    exact (hf.reacts hr).close (h := { h with disconnectMe := true }) hmem (.inr rfl) rfl
      (Reacts.refl _)

lemma sweepOne (hf : Follows init s) (now : Int) (nh : Nat) :
    Follows init (s.sweepOne react now nh) := by
  rw [Server.sweepOne]
  cases hs : s.shandle nh with
  | none => exact hf
  | some h =>
    obtain ⟨hh, rfl⟩ := Server.mem_of_shandle hs
    have hquiet {kind : LogKind} (hkind : kind ≠ .recycled) (s₁ : Server) (name : String)
        (default : List String) : Reacts s₁ (((s₁.put [.log kind h.player h.nhandle]).sendMessageIf
          h.printMessages h.listener h.nhandle name default).put [.close h.nhandle]) := by
      have hlog : Reacts s₁ (s₁.put [.log kind h.player h.nhandle]) := Reacts.put s₁ fun o ho => by
        rw [List.mem_singleton.mp ho]
        exact Output.isQuiet_log hkind _ _
      exact (hlog.trans (Reacts.sendMessageIf _ _ _ _ _ _)).trans
        (Reacts.put _ fun o ho => by rw [List.mem_singleton.mp ho]; rfl)
    change Follows init (if Server.isTimedOut s.directory now h = true then _ else _)
    split_ifs with htime hvalid hd
    · rw [Server.isTimedOut, Bool.and_eq_true, Bool.and_eq_true] at htime
      exact hf.close hh (.inl (beq_iff_eq.mp htime.1.2)) rfl (hquiet (by simp) _ _ _)
    · refine hf.recycle hh ?_
      exact (Reacts.sendMessageIf _ _ _ _ _ _).trans
        (Reacts.put _ fun o ho => by rw [List.mem_singleton.mp ho]; rfl)
    · exact hf.close hh (.inr hd) rfl (hquiet (by simp) _ _ _)
    · exact hf

lemma sweep (hf : Follows init s) (time : Int) : Follows init (s.sweep react time) := by
  rw [Server.sweep]
  generalize s.allShandles.map Shandle.nhandle = nhs
  induction nhs generalizing s with
  | nil => exact hf
  | cons nh nhs ih => exact ih (hf.sweepOne _ nh)

/-- The player is told that a session begins or goes on. -/
lemma begin (hs : Sound s.identities s.nextUnconnectedPlayer) {i : Identity}
    (hi : i ∈ s.identities) (hp : 0 ≤ i.player) (hverb : verb.begins = true)
    (ht : Tells init view s.outputs)
    (hview : ∀ p, 0 ≤ p → p ≠ i.player → view p = listenerOf p s.identities)
    (hold : view i.player = if verb = .userReconnected then some i.listener else none)
    (he : s.inEmergencyMode = false) (hc : s.checkpointedConnections = none) :
    Follows init (s.callNotifier react i.player i.listener verb) := by
  have hlistener := hs.listenerOf_eq hi
  have hr := Server.callNotifier_reacts react i.player i.listener verb hs
  have ht := Server.callNotifier_tells react (fun p => listenerOf p s.identities) hs ht
    (Server.honest_begin hs hi hp hverb)
    fun p hp => by
      by_cases heq : p = i.player
      · subst heq
        cases verb with
        | userConnected => simp [session, hold, hlistener]
        | userCreated => simp [session, hold, hlistener]
        | userReconnected => simp [session, hold, hlistener]
        | _ => cases hverb
      · simp [session, Ne.symm heq, hview p hp heq]
  exact ⟨hr.sound hs, ht.congr fun p hp => (hr.listenerOf_eq hp).symm, hr.emergency.trans he,
    (hr.checkpointed he).trans hc⟩

/-- The player goes on with a connection of another listener. The new connection counts as closed
while the player is told that the old one is. -/
lemma switch (hs : Sound s.identities s.nextUnconnectedPlayer) {nh : Nat} {p l old time : Int}
    (hi : ⟨nh, p, l, time⟩ ∈ s.identities) (hp : 0 ≤ p) (ht : Tells init view s.outputs)
    (hview : ∀ q, 0 ≤ q → q ≠ p → view q = listenerOf q s.identities) (hold : view p = some old)
    (he : s.inEmergencyMode = false) (hc : s.checkpointedConnections = none) :
    Follows init ((((s.modify nh fun h => { h with disconnectMe := true }).callNotifier react p old
      .userClientDisconnected).modify nh fun h => { h with disconnectMe := false }).callNotifier
        react p l .userConnected) := by
  have hr₁ := Reacts.modify s nh (f := fun h => { h with disconnectMe := true }) fun _ => rfl
  generalize hs₁ : s.modify nh (fun h => { h with disconnectMe := true }) = s₁ at hr₁ ⊢
  obtain ⟨h, hh, heq⟩ := List.mem_map.mp hi
  have hnh : h.nhandle = nh := congrArg Identity.nhandle heq
  have hplayer : h.player = p := congrArg Identity.player heq
  have hh' : { h with disconnectMe := true } ∈ s₁.allShandles := by
    rw [← hs₁]
    exact List.mem_map.mpr ⟨h, hh, if_pos hnh⟩
  have honest : (Output.notifier p old .userClientDisconnected s₁.allShandles).Honest := by
    rw [← hplayer]
    exact Server.honest_end (h := { h with disconnectMe := true }) (hr₁.sound hs) old hh'
      (.inr rfl) rfl
  have ht₂ := Server.callNotifier_tells react
    (fun q => if q = p then none else listenerOf q s.identities) (hr₁.sound hs) (hr₁.tells ht)
    honest fun q hq => by
      rw [session_end rfl]
      by_cases hqp : q = p
      · simp [hqp, hold]
      · simp [hqp, Ne.symm hqp, hview q hq hqp]
  have hr₂ := (Server.callNotifier_reacts react p old .userClientDisconnected
    (hr₁.sound hs)).trans
      (Reacts.modify _ nh (f := fun h => { h with disconnectMe := false }) fun _ => rfl)
  refine begin (i := ⟨nh, p, l, time⟩) (hr₂.sound (hr₁.sound hs)) (hr₂.mem (hr₁.mem hi)) hp rfl ht₂
    (fun q hq hqp => ?_) (if_pos rfl) (hr₂.emergency.trans (hr₁.emergency.trans he))
    ((hr₂.checkpointed (hr₁.emergency.trans he)).trans ((hr₁.checkpointed he).trans hc))
  rw [hr₂.listenerOf_eq hq]
  exact (if_neg hqp).trans (hr₁.listenerOf_eq hq).symm

/-- The connection of a player is given up for the new connection of the player. -/
lemma redirect (hf : Follows init s) {new existing : Shandle} {p time : Int}
    (hnew : new ∈ s.allShandles) (hold : new.player < 0) (hp : 0 ≤ p) (htime : time ≠ 0)
    (hex : existing ∈ s.allShandles) (hplayer : existing.player = p) {os : List Output}
    (hquiet : ∀ o ∈ os, o.isQuiet = true) :
    let s₁ := (((s.modify new.nhandle fun h => { h with player := p, connectionTime := time }).put
      os).freeShandle existing.nhandle)
    Sound s₁.identities s₁.nextUnconnectedPlayer ∧
      ⟨new.nhandle, p, new.listener, time⟩ ∈ s₁.identities ∧
      Tells init (fun q => listenerOf q s.identities) s₁.outputs ∧
      ∀ q, 0 ≤ q → listenerOf q s₁.identities
        = if q = p then some new.listener else listenerOf q s.identities := by
  have hne : new.nhandle ≠ existing.nhandle := by
    intro heq
    have hsame := hf.sound.eq_of_nhandle (Server.identity_mem hnew) (Server.identity_mem hex) heq
    have hplayers : new.player = existing.player := congrArg Identity.player hsame
    omega
  have hmem : new.identity ∈ s.identities.filter fun i => i.nhandle ≠ existing.nhandle :=
    List.mem_filter.mpr ⟨Server.identity_mem hnew, decide_eq_true hne⟩
  have hs := hf.sound.sublist (List.filter_sublist (p := fun i => i.nhandle ≠ existing.nhandle))
  have hfree : ∀ j ∈ s.identities.filter fun i => i.nhandle ≠ existing.nhandle, j.player ≠ p := by
    intro j hj heq
    obtain ⟨hj, hjne⟩ := List.mem_filter.mp hj
    have hsame := hf.sound.eq_of_player hj (Server.identity_mem hex) (heq.trans hplayer.symm)
    rw [hsame] at hjne
    simp [Shandle.identity] at hjne
  have hids : (((s.modify new.nhandle fun h =>
      { h with player := p, connectionTime := time }).put os).freeShandle
        existing.nhandle).identities
      = (s.identities.filter fun i => i.nhandle ≠ existing.nhandle).map
          (Identity.login new.nhandle p time) := by
    rw [Server.identities_freeShandle, Server.identities_put, Server.identities_login,
      List.filter_map]
    congr 2
    funext i
    rw [Function.comp_apply, Identity.nhandle_login]
  refine ⟨?_, ?_, hf.tells.quiet hquiet, fun q hq => ?_⟩
  · rw [hids]
    exact hs.login _ hp htime hfree
  · rw [hids]
    exact List.mem_map.mpr ⟨_, hmem, if_pos rfl⟩
  · rw [hids]
    refine (hs.listenerOf_login hmem hold hp htime hfree hq).trans ?_
    rw [show listenerOf q (s.identities.filter fun i => i.nhandle ≠ existing.nhandle) = _ from
      hf.sound.listenerOf_filter (Server.identity_mem hex) q]
    by_cases hqp : q = p
    · rw [if_pos hqp, if_pos hqp]
      rfl
    · rw [if_neg hqp, if_neg hqp, if_neg (by rw [← hplayer] at hqp; exact hqp)]

/-- `player_connected` does not panic. -/
lemma login (hf : Follows init s) {oldId newId time : Int} (hcan : s.CanLogin oldId newId time)
    (isNewlyCreated : Bool) :
    ∃ s', s.playerConnected react oldId newId isNewlyCreated time = .ok s' ∧ Follows init s' := by
  obtain ⟨hneg, hsome, hp, htime⟩ := hcan
  obtain ⟨new, hnew⟩ := Option.isSome_iff_exists.mp hsome
  obtain ⟨hmem, hplayer⟩ := Server.mem_of_findShandle hnew
  have hold : new.player < 0 := by rw [hplayer]; exact hneg
  rw [Server.playerConnected, hnew]
  cases hex : s.findShandle newId with
  | none =>
    have hfree : ∀ j ∈ s.identities, j.player ≠ newId := by
      intro j hj heq
      obtain ⟨h, hh, rfl⟩ := List.mem_map.mp hj
      rw [Server.findShandle, List.find?_eq_none] at hex
      exact hex h hh (decide_eq_true heq)
    have hs := hf.sound.login new.nhandle hp htime hfree
    have hlogin (q : Int) (hq : 0 ≤ q) :=
      hf.sound.listenerOf_login (Server.identity_mem hmem) hold hp htime hfree hq
    -- the message and the line of the log
    have hr (kind : LogKind) (hkind : kind ≠ .recycled) (name : String) (default : List String) :
        Reacts (s.modify new.nhandle fun h => { h with player := newId, connectionTime := time })
          (((s.modify new.nhandle fun h => { h with player := newId, connectionTime := time }).put
            [.log kind newId new.nhandle]).sendMessageIf new.printMessages new.listener new.nhandle
              name default) :=
      (Reacts.put _ fun o ho => by
        rw [List.mem_singleton.mp ho]
        exact Output.isQuiet_log hkind _ _).trans (Reacts.sendMessageIf _ _ _ _ _ _)
    have hbegin {s₁ : Server} (hr : Reacts (s.modify new.nhandle fun h =>
        { h with player := newId, connectionTime := time }) s₁) {verb : Notifier}
        (hverb : verb.begins = true) (hne : verb ≠ .userReconnected) :
        Follows init (s₁.callNotifier react newId new.listener verb) := by
      have hi : ⟨new.nhandle, newId, new.listener, time⟩ ∈ s₁.identities := by
        refine hr.mem ?_
        rw [Server.identities_login]
        exact List.mem_map.mpr ⟨_, Server.identity_mem hmem, if_pos rfl⟩
      refine begin (hr.sound ?_) hi hp hverb (hr.tells hf.tells) (fun q hq hqp => ?_) ?_
        (hr.emergency.trans hf.emergency) ((hr.checkpointed hf.emergency).trans hf.checkpointed)
      · rw [Server.identities_login]
        exact hs
      · rw [hr.listenerOf_eq hq, Server.identities_login]
        exact ((hlogin q hq).trans (if_neg hqp)).symm
      · rw [if_neg hne]
        exact listenerOf_eq_none hfree
    cases isNewlyCreated with
    | false => exact ⟨_, rfl, hbegin (hr .connected (by simp) _ _) rfl (by simp)⟩
    | true => exact ⟨_, rfl, hbegin (hr .created (by simp) _ _) rfl (by simp)⟩
  | some existing =>
    obtain ⟨hexmem, hexplayer⟩ := Server.mem_of_findShandle hex
    obtain ⟨os₁, h₁, hq₁⟩ := Server.sendMessageIf_eq existing.printMessages existing.listener
      existing.nhandle "redirect_from_msg" ["*** Redirecting connection to new port ***"]
      ((s.modify new.nhandle fun h => { h with player := newId, connectionTime := time }).put
        [.log (.redirected existing.nhandle) newId new.nhandle])
    obtain ⟨os₂, h₂, hq₂⟩ := Server.sendMessageIf_eq new.printMessages new.listener new.nhandle
      "redirect_to_msg" ["*** Redirecting old connection to this port ***"]
      ((s.modify new.nhandle fun h => { h with player := newId, connectionTime := time }).put
        ([.log (.redirected existing.nhandle) newId new.nhandle] ++ os₁))
    simp only [h₁, h₂, Server.put_put]
    have hquiet : ∀ o ∈ [Output.log (.redirected existing.nhandle) newId new.nhandle] ++ os₁ ++
        os₂ ++ [.close existing.nhandle], o.isQuiet = true := by
      intro o ho
      simp only [List.mem_append, List.mem_singleton] at ho
      rcases ho with ((rfl | ho) | ho) | rfl
      · rfl
      · exact hq₁ o ho
      · exact hq₂ o ho
      · rfl
    obtain ⟨hs, hi, ht, hof⟩ := hf.redirect hmem hold hp htime hexmem hexplayer hquiet
    have hlistener : listenerOf newId s.identities = some existing.listener := by
      rw [← hexplayer]
      exact hf.sound.listenerOf_eq (Server.identity_mem hexmem)
    generalize hs₁ : Server.freeShandle _ _ = s₁ at hs hi ht hof ⊢
    have he : s₁.inEmergencyMode = false := by rw [← hs₁]; exact hf.emergency
    have hc : s₁.checkpointedConnections = none := by rw [← hs₁]; exact hf.checkpointed
    split_ifs with hsame
    · refine ⟨_, rfl, begin hs hi hp rfl ht (fun q hq hqp => ?_) ?_ he hc⟩
      · exact ((hof q hq).trans (if_neg hqp)).symm
      · rw [if_pos rfl, ← hsame]
        exact hlistener
    · refine ⟨_, rfl, switch hs hi hp ht (fun q hq hqp => ?_) hlistener he hc⟩
      exact ((hof q hq).trans (if_neg hqp)).symm

lemma step (react : Reaction) (hf : Follows init s) (e : ServerEvent) :
    ∃ s', s.step react e = .ok s' ∧ Follows init s' := by
  cases e with
  | accept l nhandle time =>
    exact ⟨_, rfl, hf.reacts (Reacts.openConnection s l nhandle false time hf.sound)⟩
  | receive nhandle time => exact ⟨_, rfl, hf.reacts (Reacts.modify s nhandle fun _ => rfl)⟩
  | clientClosed nhandle => exact ⟨_, rfl, hf.serverClose nhandle⟩
  | task ops => exact ⟨_, rfl, hf.reacts (Reacts.runOps hf.sound ops)⟩
  | login oldId newId isNewlyCreated time =>
    rw [Server.step]
    split_ifs with hcan
    · exact hf.login hcan isNewlyCreated
    · exact ⟨s, rfl, hf⟩
  | sweep time => exact ⟨_, rfl, hf.sweep time⟩

lemma run (hf : Follows init s) (events : List ServerEvent) :
    ∃ s', s.run react events = .ok s' ∧ Follows init s' := by
  induction events generalizing s with
  | nil => exact ⟨s, rfl, hf⟩
  | cons e events ih =>
    obtain ⟨s₁, h₁, hf₁⟩ := hf.step react e
    obtain ⟨s', h', hf'⟩ := ih hf₁
    refine ⟨s', ?_, hf'⟩
    rw [Server.run, List.foldlM_cons, h₁]
    exact h'

end Follows

end

end LambdaMOO
