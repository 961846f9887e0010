import LambdaMOO.Tasks.Placement

/-!
# The number of queued tasks

`num_bg_tasks` counts the background tasks of a queue and the waiting tasks of its player.
It goes up in `enqueue_waiting` only, so a task that comes from a registered queue is never
counted; and a queue without an owner is left under the number `NOTHING`, which is also the
number of a programmer.
-/

namespace LambdaMOO

/-- What is counted beyond the background list. -/
def TQueue.balance (q : TQueue) : Int := q.numBgTasks - q.bg.length

namespace TaskState

variable {s s' : TaskState} {n m : Nat} {t : BgTask}

/-- The number of waiting tasks of a programmer. -/
def owed (p : Int) (ts : List BgTask) : Nat := ts.countP fun t => t.progr = p

lemma owed_perm {p : Int} {ts us : List BgTask} (h : ts.Perm us) : owed p ts = owed p us :=
  h.countP_eq _

lemma owed_cons (p : Int) (t : BgTask) (ts : List BgTask) :
    owed p (t :: ts) = owed p ts + if t.progr = p then 1 else 0 := by
  simp [owed, List.countP_cons]

lemma owed_eq_zero {p : Int} {ts : List BgTask} : owed p ts = 0 ↔ ∀ t ∈ ts, t.progr ≠ p := by
  simp [owed, List.countP_eq_zero]

/-- Every queue counts its tasks. Two queues of one player are queues without an owner. -/
structure Accounted (s : TaskState) : Prop extends WellFormed s where
  counted : ∀ n ∈ s.members, (s.queues n).balance = owed (s.queues n).player s.waiting
  unique : ∀ n ∈ s.members, ∀ m ∈ s.members, (s.queues n).player = (s.queues m).player →
    n = m ∨ (s.queues n).player = nothing ∧ owed nothing s.waiting = 0
  covered : ∀ t ∈ s.waiting, ∃ n ∈ s.members, (s.queues n).player = t.progr
  numbered : ∀ n ∈ s.members, (s.queues n).connected = true → (s.queues n).player ≠ nothing

lemma accounted_init : init.Accounted where
  toWellFormed := sound_init.toWellFormed
  counted _ h := absurd h List.not_mem_nil
  unique _ h := absurd h List.not_mem_nil
  covered _ h := absurd h List.not_mem_nil
  numbered _ h := absurd h List.not_mem_nil

/-- The queue of a player with a waiting task is the only one. -/
lemma Accounted.eq_of_waiting (h : s.Accounted) (ht : t ∈ s.waiting) (hn : n ∈ s.members)
    (hm : m ∈ s.members) (hpn : (s.queues n).player = t.progr)
    (hpm : (s.queues m).player = t.progr) : n = m := by
  rcases h.unique n hn m hm (hpn.trans hpm.symm) with hnm | ⟨hp, howed⟩
  · exact hnm
  · exact absurd (hpn.symm.trans hp) (owed_eq_zero.mp howed t ht)

/-! ### Steps that count nothing -/

/-- What accounting reads of a queue is the same, and the queue is not connected anew. -/
structure SameAccount (q q' : TQueue) : Prop where
  player : q'.player = q.player
  balance : q'.balance = q.balance
  connected : q'.connected = true → q.connected = true

lemma SameAccount.refl (q : TQueue) : SameAccount q q := ⟨rfl, rfl, fun h => h⟩

lemma Accounted.congr (h : s.Accounted) (hw : s'.WellFormed)
    (hmem : ∀ n, n ∈ s'.members ↔ n ∈ s.members)
    (hq : ∀ n ∈ s.members, SameAccount (s.queues n) (s'.queues n)) (hwait : s'.waiting = s.waiting) :
    s'.Accounted where
  toWellFormed := hw
  counted n hn := by
    have hn := (hmem n).mp hn
    rw [(hq n hn).balance, (hq n hn).player, hwait]
    exact h.counted n hn
  unique n hn m hm := by
    have hn := (hmem n).mp hn
    have hm := (hmem m).mp hm
    rw [(hq n hn).player, (hq m hm).player, hwait]
    exact h.unique n hn m hm
  covered t ht := by
    rw [hwait] at ht
    obtain ⟨n, hn, hp⟩ := h.covered t ht
    exact ⟨n, (hmem n).mpr hn, (hq n hn).player.trans hp⟩
  numbered n hn hc := by
    have hn := (hmem n).mp hn
    rw [(hq n hn).player]
    exact h.numbered n hn ((hq n hn).connected hc)

lemma Accounted.modify (h : s.Accounted) (n : Nat) {f : TQueue → TQueue}
    (hu : (f (s.queues n)).usage = (s.queues n).usage)
    (hf : SameAccount (s.queues n) (f (s.queues n))) : (s.modify n f).Accounted := by
  refine h.congr ?_ (fun _ => Iff.rfl) (fun m hm => ?_) rfl
  · exact h.toWellFormed.modify_at n hu
  · rw [modify_queues]
    by_cases hmn : m = n
    · rw [hmn, Function.update_self]
      exact hf
    · rw [Function.update_of_ne hmn]
      exact SameAccount.refl _

lemma Accounted.of_moves (h : s.Accounted) (hw : s'.WellFormed) (hmoves : Moves s s') :
    s'.Accounted := by
  refine h.congr hw (fun n => hmoves.members.mem_iff) (fun n _ => ?_) hmoves.waiting
  rw [hmoves.queues n]
  exact ⟨rfl, rfl, fun hc => hc⟩

lemma Accounted.ensureUsage (h : s.Accounted) (hn : n ∈ s.members) :
    (s.ensureUsage n).Accounted := by
  obtain ⟨hmoves, hw, -⟩ := ensureUsage_spec h.toWellFormed hn
  exact h.of_moves hw hmoves

lemma Accounted.ite_ensureUsage (h : s.Accounted) (hn : n ∈ s.members) {c : Prop}
    {_ : Decidable c} : (if c then s.ensureUsage n else s).Accounted := by
  by_cases hc : c
  · rw [if_pos hc]
    exact h.ensureUsage hn
  · rw [if_neg hc]
    exact h

lemma Accounted.die (h : s.Accounted) (t : BgTask) : (s.die t).Accounted :=
  ⟨⟨h.nodup, h.idle_usage, h.active_usage, h.running, h.fresh⟩, h.counted, h.unique, h.covered,
    h.numbered⟩

lemma Accounted.birth (h : s.Accounted) : s.birth.Accounted :=
  ⟨⟨h.nodup, h.idle_usage, h.active_usage, h.running, h.fresh⟩, h.counted, h.unique, h.covered,
    h.numbered⟩

lemma Accounted.setExternal (h : s.Accounted) (es : List BgTask) :
    { s with external := es }.Accounted :=
  ⟨h.toWellFormed.setTasks s.waiting es, h.counted, h.unique, h.covered, h.numbered⟩

lemma Accounted.setRunning (h : s.Accounted) (hn : s.active.head? = some n) :
    { s with running := some n }.Accounted :=
  ⟨h.toWellFormed.setRunning hn, h.counted, h.unique, h.covered, h.numbered⟩

/-! ### New queues -/

lemma Accounted.createQueue (h : s.Accounted) {player : Int}
    (hnone : ∀ n ∈ s.members, (s.queues n).player ≠ player) : (s.createQueue player).Accounted := by
  have hnot := nextQueue_notMem h.toWellFormed
  have hold (m : Nat) (hm : m ∈ s.members) : (s.createQueue player).queues m = s.queues m := by
    rw [createQueue_queues, Function.update_of_ne]
    rintro rfl
    exact hnot hm
  have hnew : (s.createQueue player).queues s.nextQueue = newQueue player := by
    rw [createQueue_queues, Function.update_self]
  refine ⟨h.toWellFormed.createQueue player, fun n hn => ?_, fun n hn m hm hp => ?_, fun t ht => ?_,
    fun n hn => ?_⟩
  · rcases List.mem_cons.mp hn with rfl | hn
    · have hzero : owed player s.waiting = 0 := owed_eq_zero.mpr fun t ht hp => by
        obtain ⟨n, hn, hpn⟩ := h.covered t ht
        exact hnone n hn (hpn.trans hp)
      rw [hnew]
      change (0 : Int) = owed player s.waiting
      rw [hzero]
      rfl
    · rw [hold n hn]
      exact h.counted n hn
  · rcases List.mem_cons.mp hn with rfl | hn
    · rcases List.mem_cons.mp hm with rfl | hm
      · exact Or.inl rfl
      · rw [hnew, hold m hm] at hp
        exact absurd hp.symm (hnone m hm)
    · rcases List.mem_cons.mp hm with rfl | hm
      · rw [hnew, hold n hn] at hp
        exact absurd hp (hnone n hn)
      · rw [hold n hn] at hp ⊢
        rw [hold m hm] at hp
        exact h.unique n hn m hm hp
  · obtain ⟨n, hn, hp⟩ := h.covered t ht
    exact ⟨n, List.mem_cons_of_mem _ hn, by rw [hold n hn]; exact hp⟩
  · rcases List.mem_cons.mp hn with rfl | hn
    · rw [hnew]
      exact fun hc => absurd hc (by simp [newQueue])
    · rw [hold n hn]
      exact h.numbered n hn

lemma Accounted.findOrCreate (h : s.Accounted) (player : Int) :
    (s.findOrCreate player).2.Accounted ∧
      (s.findOrCreate player).1 ∈ (s.findOrCreate player).2.members := by
  refine ⟨?_, (findOrCreate_finds h.toWellFormed player).mem⟩
  rcases findOrCreate_cases s player with ⟨n, -, -, -, heq⟩ | ⟨hnone, heq⟩
  · rw [heq]
    exact h
  · rw [heq]
    exact h.createQueue hnone

/-! ### Tasks that come and go -/

/-- At most one queue has no owner. -/
def Solitary (s : TaskState) : Prop :=
  ∀ n ∈ s.members, ∀ m ∈ s.members, (s.queues n).player = nothing →
    (s.queues m).player = nothing → n = m

/-- The queue a task is added to is the only one of its programmer. -/
lemma Accounted.findOrCreate_unique (h : s.Accounted) {player : Int}
    (hs : player = nothing → s.Solitary) :
    ∀ m ∈ (s.findOrCreate player).2.members,
      ((s.findOrCreate player).2.queues m).player = player → m = (s.findOrCreate player).1 := by
  intro m hm hp
  rcases findOrCreate_cases s player with ⟨n, hn, hpn, -, heq⟩ | ⟨hnone, heq⟩
  · rw [heq] at hm hp ⊢
    rcases h.unique m hm n hn (hp.trans hpn.symm) with hmn | ⟨hnothing, -⟩
    · exact hmn
    · have hplayer : player = nothing := hp.symm.trans hnothing
      exact hs hplayer m hm n hn hnothing (hpn.trans hplayer)
  · rw [heq] at hm hp ⊢
    rcases List.mem_cons.mp hm with rfl | hm
    · rfl
    · rw [createQueue_queues, Function.update_of_ne] at hp
      · exact absurd hp (hnone m hm)
      · rintro rfl
        exact nextQueue_notMem h.toWellFormed hm

lemma Accounted.enqueueWaiting (h : s.Accounted) (t : BgTask)
    (hs : t.progr = nothing → s.Solitary) : (s.enqueueWaiting t).Accounted := by
  obtain ⟨h₁, hn⟩ := h.findOrCreate t.progr
  have hf := findOrCreate_finds h.toWellFormed t.progr
  have huniq := h.findOrCreate_unique hs
  unfold TaskState.enqueueWaiting
  generalize s.findOrCreate t.progr = r at *
  obtain ⟨n, s₁⟩ := r
  dsimp only at h₁ hn hf huniq ⊢
  have hperm := insertWaiting_perm t s₁.waiting
  have hw : (s₁.modify n fun q => { q with numBgTasks := q.numBgTasks + 1 }).WellFormed :=
    h₁.toWellFormed.modify n fun _ => rfl
  generalize hs₂ : (s₁.modify n fun q => { q with numBgTasks := q.numBgTasks + 1 }) = s₂ at *
  have hmem : s₂.members = s₁.members := by
    rw [← hs₂]
    rfl
  have hwait : s₂.waiting = s₁.waiting := by
    rw [← hs₂]
    rfl
  have hplayer (m : Nat) : (s₂.queues m).player = (s₁.queues m).player ∧
      (s₂.queues m).connected = (s₁.queues m).connected := by
    rw [← hs₂, modify_queues]
    by_cases hmn : m = n
    · rw [hmn, Function.update_self]
      exact ⟨rfl, rfl⟩
    · rw [Function.update_of_ne hmn]
      exact ⟨rfl, rfl⟩
  refine ⟨hw.setTasks _ _, fun m hm => ?_, fun m hm k hk hp => ?_, fun u hu => ?_, fun m hm => ?_⟩
  · change (s₂.queues m).balance = owed (s₂.queues m).player (insertWaiting t s₂.waiting)
    have hm : m ∈ s₁.members := hmem ▸ hm
    have hcount := h₁.counted m hm
    rw [hwait, owed_perm hperm, owed_cons, (hplayer m).1]
    by_cases hmn : m = n
    · have hbal : (s₂.queues m).balance = (s₁.queues m).balance + 1 := by
        rw [hmn, ← hs₂, modify_queues, Function.update_self]
        simp only [TQueue.balance]
        omega
      rw [if_pos (by rw [hmn]; exact hf.player.symm), hbal, hcount]
      rfl
    · have hbal : (s₂.queues m).balance = (s₁.queues m).balance := by
        rw [← hs₂, modify_queues, Function.update_of_ne hmn]
      rw [if_neg fun hp => hmn (huniq m hm hp.symm), hbal, hcount]
      rfl
  · change (s₂.queues m).player = (s₂.queues k).player at hp
    change m = k ∨ (s₂.queues m).player = nothing ∧ owed nothing (insertWaiting t s₂.waiting) = 0
    rw [(hplayer m).1, (hplayer k).1] at hp
    rw [(hplayer m).1, hwait, owed_perm hperm, owed_cons]
    have hm : m ∈ s₁.members := hmem ▸ hm
    have hk : k ∈ s₁.members := hmem ▸ hk
    rcases h₁.unique m hm k hk hp with hmk | ⟨hnothing, howed⟩
    · exact Or.inl hmk
    · by_cases ht : t.progr = nothing
      · have hm' := huniq m hm (hnothing.trans ht.symm)
        have hk' := huniq k hk (hp.symm.trans (hnothing.trans ht.symm))
        exact Or.inl (hm'.trans hk'.symm)
      · rw [if_neg ht]
        exact Or.inr ⟨hnothing, howed⟩
  · have hu : u ∈ t :: s₁.waiting := hperm.subset (hwait ▸ hu)
    rcases List.mem_cons.mp hu with rfl | hu
    · exact ⟨n, hmem ▸ hn, (hplayer n).1.trans hf.player⟩
    · obtain ⟨k, hk, hp⟩ := h₁.covered u hu
      exact ⟨k, hmem ▸ hk, (hplayer k).1.trans hp⟩
  · intro hc
    change (s₂.queues m).player ≠ nothing
    rw [(hplayer m).1]
    exact h₁.numbered m (hmem ▸ hm) ((hplayer m).2 ▸ hc)

/-- A waiting task leaves, and the queue of its programmer has one more counted elsewhere. -/
lemma Accounted.of_take (h : s.Accounted) (hw : s'.WellFormed)
    (hmem : ∀ n, n ∈ s'.members ↔ n ∈ s.members) (hperm : s.waiting.Perm (t :: s'.waiting))
    (hn : n ∈ s.members) (hp : (s.queues n).player = t.progr)
    (hplayer : ∀ m, (s'.queues m).player = (s.queues m).player ∧
      (s'.queues m).connected = (s.queues m).connected)
    (hqn : (s'.queues n).balance = (s.queues n).balance - 1)
    (hq : ∀ m, m ≠ n → (s'.queues m).balance = (s.queues m).balance) : s'.Accounted := by
  have ht : t ∈ s.waiting := hperm.symm.subset List.mem_cons_self
  refine ⟨hw, fun m hm => ?_, fun m hm k hk hpk => ?_, fun u hu => ?_, fun m hm hc => ?_⟩
  · have hm := (hmem m).mp hm
    have hcount := h.counted m hm
    rw [owed_perm hperm, owed_cons] at hcount
    rw [(hplayer m).1]
    by_cases hmn : m = n
    · subst hmn
      rw [if_pos hp.symm] at hcount
      rw [hqn, hcount]
      omega
    · rw [if_neg fun hpm => hmn (h.eq_of_waiting ht hm hn hpm.symm hp)] at hcount
      rw [hq m hmn, hcount]
      rfl
  · rw [(hplayer m).1, (hplayer k).1] at hpk
    rw [(hplayer m).1]
    refine (h.unique m ((hmem m).mp hm) k ((hmem k).mp hk) hpk).imp_right fun ⟨hnothing, howed⟩ => ?_
    rw [owed_perm hperm, owed_cons] at howed
    exact ⟨hnothing, by omega⟩
  · obtain ⟨k, hk, hpk⟩ := h.covered u (hperm.symm.subset (List.mem_cons_of_mem _ hu))
    exact ⟨k, (hmem k).mpr hk, (hplayer k).1.trans hpk⟩
  · rw [(hplayer m).1]
    exact h.numbered m ((hmem m).mp hm) ((hplayer m).2 ▸ hc)

lemma perm_cons_eraseP {p : BgTask → Bool} {ts : List BgTask} (h : ts.find? p = some t) :
    ts.Perm (t :: ts.eraseP p) := by
  obtain ⟨hp, as, bs, rfl, has⟩ := List.find?_eq_some_iff_append.mp h
  have hnot : ∀ a ∈ as, ¬ p a = true := fun a ha => by simpa using has a ha
  rw [List.eraseP_append_right _ hnot, List.eraseP_cons_of_pos hp]
  exact List.perm_middle

/-- The queue of a waiting task is there already. -/
lemma Accounted.findOrCreate_of_waiting (h : s.Accounted) {ws : List BgTask} {s₁ : TaskState}
    (hs₁ : s₁ = { s with waiting := ws }) (ht : t ∈ s.waiting) :
    ∃ n ∈ s.members, (s.queues n).player = t.progr ∧ s₁.findTqueue t.progr = some n ∧
      s₁.findOrCreate t.progr = (n, s₁) := by
  obtain ⟨k, hk, hpk⟩ := h.covered t ht
  rcases findOrCreate_cases s₁ t.progr with ⟨n, hn, hp, hfind, heq⟩ | ⟨hnone, -⟩
  · subst hs₁
    exact ⟨n, hn, hp, hfind, heq⟩
  · subst hs₁
    exact absurd hpk (hnone k hk)

lemma Accounted.handOver (h : s.Accounted) {ws : List BgTask} (hperm : s.waiting.Perm (t :: ws))
    (st : Int) {s₁ : TaskState} (hs₁ : s₁ = { s with waiting := ws }) :
    (((s₁.findOrCreate t.progr).2.ensureUsage (s₁.findOrCreate t.progr).1).enqueueBgTask
      (s₁.findOrCreate t.progr).1 { t with startTime := st }).Accounted := by
  have ht : t ∈ s.waiting := hperm.symm.subset List.mem_cons_self
  obtain ⟨n, hn, hp, -, heq⟩ := h.findOrCreate_of_waiting hs₁ ht
  rw [heq]
  have hw₁ : s₁.WellFormed := hs₁ ▸ h.toWellFormed.setTasks ws s.external
  have hqueues (m : Nat) : s₁.queues m = s.queues m := by rw [hs₁]
  have hmem : s₁.members = s.members := by
    rw [hs₁]
    rfl
  obtain ⟨hmoves, hw₂, -⟩ := ensureUsage_spec hw₁ (hmem ▸ hn)
  have hwait : (s₁.ensureUsage n).waiting = ws := by
    rw [hmoves.waiting, hs₁]
  dsimp only
  generalize s₁.ensureUsage n = s₂ at *
  refine h.of_take (hw₂.modify n fun _ => rfl) (fun m => ?_) (hwait ▸ hperm) hn hp (fun m => ?_) ?_
    (fun m hm => ?_)
  · exact hmoves.members.mem_iff.trans (by rw [hmem])
  · unfold enqueueBgTask
    rw [modify_queues]
    by_cases hmn : m = n
    · rw [hmn, Function.update_self, hmoves.queues, hqueues]
      exact ⟨rfl, rfl⟩
    · rw [Function.update_of_ne hmn, hmoves.queues, hqueues]
      exact ⟨rfl, rfl⟩
  · unfold enqueueBgTask
    rw [modify_queues, Function.update_self, hmoves.queues, hqueues]
    simp only [TQueue.balance, List.length_append, List.length_singleton]
    omega
  · unfold enqueueBgTask
    rw [modify_queues, Function.update_of_ne hm, hmoves.queues, hqueues]
    rfl

lemma Accounted.doResume (h : s.Accounted) (id : Nat) (now progr : Int) (wizard : Bool) :
    (s.doResume id now progr wizard).Accounted := by
  unfold TaskState.doResume
  cases ht : s.waiting.find? (isSuspended id) with
  | none => exact h
  | some t =>
    dsimp only
    split
    · exact h.handOver (perm_cons_eraseP ht) now rfl
    · exact h

lemma Accounted.releaseTasks (now : Int) (ts : List BgTask) (h : s.Accounted)
    (hts : s.waiting = ts) : (s.releaseTasks now ts).Accounted := by
  induction ts generalizing s with
  | nil =>
    unfold TaskState.releaseTasks
    rw [← hts]
    exact h
  | cons t ts ih =>
    unfold TaskState.releaseTasks
    split
    · refine ih (h.handOver (hts ▸ List.Perm.refl _) t.startTime rfl) ?_
      have hf := findOrCreate_finds (h.toWellFormed.setTasks ts s.external) t.progr
      obtain ⟨hmoves, -⟩ := ensureUsage_spec hf.wellFormed hf.mem
      exact hmoves.waiting.trans hf.waiting
    · rw [← hts]
      exact h

/-! ### Killing -/

lemma Accounted.killWaiting (h : s.Accounted)
    (ht : s.waiting.find? (fun w => w.id = t.id) = some t) : (s.killWaiting t).Accounted := by
  have hperm := perm_cons_eraseP ht
  obtain ⟨n, hn, hp, hfind, -⟩ := h.findOrCreate_of_waiting rfl (List.mem_of_find?_eq_some ht)
  have hfind : s.findTqueue t.progr = some n := hfind
  unfold TaskState.killWaiting
  generalize s.waiting.eraseP (fun w => decide (w.id = t.id)) = ws at *
  rw [hfind]
  apply Accounted.die
  refine h.of_take ?_ (fun m => ?_) hperm hn hp (fun m => ?_) ?_ fun m hm => ?_
  · exact WellFormed.modify (h.toWellFormed.setTasks ws s.external) n fun _ => rfl
  · exact Iff.rfl
  · rw [modify_queues]
    by_cases hmn : m = n
    · rw [hmn, Function.update_self]
      exact ⟨rfl, rfl⟩
    · rw [Function.update_of_ne hmn]
      exact ⟨rfl, rfl⟩
  · rw [modify_queues, Function.update_self]
    simp only [TQueue.balance]
    omega
  · rw [modify_queues, Function.update_of_ne hm]

lemma length_eraseP_add_one {p : BgTask → Bool} {ts : List BgTask} (h : ts.find? p = some t) :
    (ts.eraseP p).length + 1 = ts.length :=
  (perm_cons_eraseP h).length_eq.symm

lemma Accounted.killBg (h : s.Accounted)
    (ht : (s.queues n).bg.find? (fun w => w.id = t.id) = some t) : (s.killBg n t).Accounted := by
  refine Accounted.die (h.modify n rfl ⟨rfl, ?_, fun hc => hc⟩) t
  have := length_eraseP_add_one ht
  simp only [TQueue.balance]
  omega

lemma Accounted.killTask (h : s.Accounted) (id : Nat) (owner : Int) (wizard : Bool) :
    (s.killTask id owner wizard).Accounted := by
  unfold TaskState.killTask
  split
  · rename_i t ht
    split
    · exact h.killWaiting (find_id ht)
    · exact h
  · split
    · split
      · exact h.modify _ rfl ⟨rfl, rfl, fun hc => hc⟩
      · exact h
    · split
      · exact h
      · split
        · exact h.modify _ rfl ⟨rfl, rfl, fun hc => hc⟩
        · split
          · rename_i t ht
            exact h.killBg (find_id ht)
          · exact h
    · split
      · split
        · exact Accounted.die (h.setExternal _) _
        · exact h
      · exact h

/-! ### Connections and input -/

lemma Accounted.newTaskQueue (h : s.Accounted) {player : Int} (hp : player < nothing) :
    (s.newTaskQueue player).Accounted := by
  obtain ⟨h₁, hn⟩ := h.findOrCreate player
  have hf := findOrCreate_finds h.toWellFormed player
  unfold TaskState.newTaskQueue
  generalize s.findOrCreate player = r at *
  obtain ⟨n, s₁⟩ := r
  dsimp only at h₁ hn hf ⊢
  have hsame (m : Nat) : ((s₁.modify n fun q => { q with connected := true }).queues m).player
      = (s₁.queues m).player ∧ ((s₁.modify n fun q => { q with connected := true }).queues m).balance
      = (s₁.queues m).balance := by
    rw [modify_queues]
    by_cases hmn : m = n
    · rw [hmn, Function.update_self]
      exact ⟨rfl, rfl⟩
    · rw [Function.update_of_ne hmn]
      exact ⟨rfl, rfl⟩
  refine ⟨h₁.toWellFormed.modify n fun _ => rfl, fun m hm => ?_, fun m hm k hk => ?_, fun t ht => ?_,
    fun m hm hc => ?_⟩
  · rw [(hsame m).1, (hsame m).2]
    exact h₁.counted m hm
  · rw [(hsame m).1, (hsame k).1]
    exact h₁.unique m hm k hk
  · obtain ⟨m, hm, hpm⟩ := h₁.covered t ht
    exact ⟨m, hm, (hsame m).1.trans hpm⟩
  · rw [(hsame m).1]
    by_cases hmn : m = n
    · rw [hmn, hf.player]
      omega
    · rw [modify_queues, Function.update_of_ne hmn] at hc
      exact h₁.numbered m hm hc

lemma Accounted.freeTaskQueue (h : s.Accounted) (hn : n ∈ s.members) :
    (s.freeTaskQueue n).Accounted := by
  unfold TaskState.freeTaskQueue
  dsimp only
  apply Accounted.ite_ensureUsage
  · exact h.modify n rfl ⟨rfl, rfl, fun hc => absurd hc (by simp)⟩
  · exact hn

lemma Accounted.enqueueInput (h : s.Accounted) (hn : n ∈ s.members) (c : InputTask)
    (atFront : Bool) : (s.enqueueInput n c atFront).Accounted := by
  unfold TaskState.enqueueInput
  dsimp only
  apply Accounted.ite_ensureUsage
  · exact h.modify n rfl ⟨rfl, rfl, fun hc => hc⟩
  · exact hn

lemma Accounted.setHoldInput (h : s.Accounted) (hn : n ∈ s.members) (value : Bool) :
    (s.setHoldInput n value).Accounted := by
  unfold TaskState.setHoldInput
  dsimp only
  apply Accounted.ite_ensureUsage
  · exact h.modify n rfl ⟨rfl, rfl, fun hc => hc⟩
  · exact hn

lemma Accounted.setDisableOob (h : s.Accounted) (hn : n ∈ s.members) (value : Bool) :
    (s.setDisableOob n value).Accounted := by
  unfold TaskState.setDisableOob
  dsimp only
  apply Accounted.ite_ensureUsage
  · exact h.modify n rfl ⟨rfl, rfl, fun hc => hc⟩
  · exact hn

lemma Accounted.makeReadingTask (h : s.Accounted) (player : Int) (id : Nat) :
    (s.makeReadingTask player id).Accounted := by
  unfold TaskState.makeReadingTask
  cases hfind : s.findTqueue player with
  | none => exact h
  | some n =>
    have hn := (mem_members_of_findTqueue hfind).1
    dsimp only
    split
    · exact h
    · apply Accounted.ite_ensureUsage
      · exact h.modify n rfl ⟨rfl, rfl, fun hc => hc⟩
      · exact hn

lemma Accounted.readInputNow (h : s.Accounted) (player : Int) :
    (s.readInputNow player).Accounted := by
  unfold TaskState.readInputNow
  cases s.findTqueue player with
  | none => exact h
  | some n => exact h.modify n rfl ⟨rfl, rfl, fun hc => hc⟩

lemma Accounted.forceInput (h : s.Accounted) (player : Int) (c : InputTask) (atFront : Bool) :
    (s.forceInput player c atFront).Accounted := by
  obtain ⟨h₁, hn⟩ := h.findOrCreate player
  exact h₁.enqueueInput hn c atFront

lemma Accounted.flushPlayer (h : s.Accounted) (player : Int) : (s.flushPlayer player).Accounted := by
  obtain ⟨h₁, -⟩ := h.findOrCreate player
  unfold TaskState.flushPlayer
  apply h₁.modify
  · rfl
  · exact ⟨rfl, rfl, fun hc => hc⟩

/-! ### Scheduling rounds -/

lemma Accounted.retireQueue (h : s.Accounted) {l : List Nat} (hl : s.active = n :: l)
    (hr : s.running = none) : (s.retireQueue n).Accounted := by
  obtain ⟨hw, hperm, -⟩ := h.toWellFormed.retireQueue hl hr
  refine h.congr hw (fun m => hperm.mem_iff) (fun m _ => ?_) rfl
  unfold TaskState.retireQueue
  rw [deactivateTqueue_queues]
  by_cases hm : m = n
  · rw [hm, Function.update_self]
    exact ⟨rfl, rfl, fun hc => hc⟩
  · rw [Function.update_of_ne hm]
    exact SameAccount.refl _

lemma Accounted.dropBgTask (h : s.Accounted) {ts : List BgTask} (hbg : (s.queues n).bg = t :: ts) :
    (s.dropBgTask n).Accounted := by
  refine h.modify n rfl ⟨rfl, ?_, fun hc => hc⟩
  simp only [TQueue.balance, hbg, List.tail_cons, List.length_cons]
  omega

lemma Accounted.pickTask (h : s.Accounted) (hr : s.running = none) (did : Bool) :
    (s.pickTask did).Accounted := by
  unfold TaskState.pickTask
  split
  · exact h
  · rename_i n l hl
    have hhead : s.active.head? = some n := by rw [hl]; rfl
    dsimp only
    split
    · exact Accounted.setRunning (h.modify n rfl ⟨rfl, rfl, fun hc => hc⟩) hhead
    · split
      · have h₁ : (s.modify n fun q => { q with
            lines := q.lines.eraseP (InputQueue.selects (selector q) q.disableOob) }).Accounted :=
          h.modify n rfl ⟨rfl, rfl, fun hc => hc⟩
        split
        · exact h₁.setRunning hhead
        · split
          · exact Accounted.setRunning (h₁.modify n rfl ⟨rfl, rfl, fun hc => hc⟩) hhead
          · split
            · exact h₁.setRunning hhead
            · exact h₁
      · split
        · rename_i hbg
          exact ((h.dropBgTask hbg).die _).setRunning hhead
        · exact h.retireQueue hl hr

lemma Accounted.finishTask (h : s.Accounted) (elapsed : Nat) : (s.finishTask elapsed).Accounted := by
  obtain ⟨hw, hperm, -, hqueues, hwait, -⟩ := finishTask_moves h.toWellFormed elapsed
  refine h.congr hw (fun m => hperm.mem_iff) (fun m _ => ?_) hwait
  rw [hqueues]
  exact ⟨rfl, rfl, fun hc => hc⟩

/-- A queue with tasks that wait is not freed. -/
lemma Accounted.freeQueues (h : s.Accounted) : s.freeQueues.Accounted := by
  have hsub : s.freeQueues.members.Sublist s.members := List.filter_sublist.append_right _
  refine ⟨h.toWellFormed.freeQueues, fun n hn => h.counted n (hsub.subset hn),
    fun n hn m hm => h.unique n (hsub.subset hn) m (hsub.subset hm), fun t ht => ?_,
    fun n hn => h.numbered n (hsub.subset hn)⟩
  obtain ⟨n, hn, hp⟩ := h.covered t ht
  refine ⟨n, ?_, hp⟩
  have hpos : 0 < owed (s.queues n).player s.waiting :=
    List.countP_pos_iff.mpr ⟨t, ht, by simp [hp]⟩
  have hcount := h.counted n hn
  have hnum : (s.queues n).numBgTasks ≠ 0 := by
    simp only [TQueue.balance] at hcount
    omega
  rcases List.mem_append.mp hn with hidle | hact
  · refine List.mem_append_left _ (List.mem_filter.mpr ⟨hidle, ?_⟩)
    simp [hnum]
  · exact List.mem_append_right _ hact

/-! ### Logging in -/

/-- The accounts while a connection logs in: its queue `n` has given its tasks away, and the
other queues count theirs. -/
structure Vacated (s : TaskState) (n : Nat) : Prop extends WellFormed s where
  mem : n ∈ s.members
  bg : (s.queues n).bg = []
  num : (s.queues n).numBgTasks = 0
  counted : ∀ m ∈ s.members, m ≠ n → (s.queues m).balance = owed (s.queues m).player s.waiting
  unique : ∀ m ∈ s.members, ∀ k ∈ s.members, m ≠ n → k ≠ n →
    (s.queues m).player = (s.queues k).player →
    m = k ∨ (s.queues m).player = nothing ∧ owed nothing s.waiting = 0
  covered : ∀ t ∈ s.waiting, ∃ m ∈ s.members, m ≠ n ∧ (s.queues m).player = t.progr
  numbered : ∀ m ∈ s.members, (s.queues m).connected = true → (s.queues m).player ≠ nothing

/-- The tasks of the new player are the tasks of its old queue. -/
lemma Vacated.takeOver (h : s.Vacated n) {d : Nat} (hd : d ∈ s.members) (hdn : d ≠ n)
    (hp : (s.queues d).player = (s.queues n).player) (hnew : 0 ≤ (s.queues n).player)
    (hw : s'.WellFormed) (hmem : s'.members = s.members) (hwait : s'.waiting = s.waiting)
    (hn' : (s'.queues n).player = (s.queues n).player ∧
      (s'.queues n).balance = (s.queues d).balance)
    (hd' : (s'.queues d).player = nothing ∧ (s'.queues d).balance = 0 ∧
      (s'.queues d).connected = false)
    (hq : ∀ m, m ≠ n → m ≠ d → s'.queues m = s.queues m)
    (hzero : owed nothing s.waiting = 0) : s'.Accounted := by
  have hnone : (s.queues n).player ≠ nothing := by
    unfold nothing
    omega
  -- no third queue has the number of the new player
  have hother (m : Nat) (hm : m ∈ s.members) (hmn : m ≠ n) (hmd : m ≠ d) :
      (s.queues m).player ≠ (s.queues n).player := by
    intro hpm
    rcases h.unique m hm d hd hmn hdn (hpm.trans hp.symm) with hmd' | ⟨hnothing, -⟩
    · exact hmd hmd'
    · exact hnone (hpm.symm.trans hnothing)
  refine ⟨hw, fun m hm => ?_, fun m hm k hk hpk => ?_, fun t ht => ?_, fun m hm hc => ?_⟩
  · rw [hmem] at hm
    rw [hwait]
    by_cases hmn : m = n
    · rw [hmn, hn'.1, hn'.2, ← hp]
      exact h.counted d hd hdn
    · by_cases hmd : m = d
      · rw [hmd, hd'.1, hd'.2.1, hzero]
        rfl
      · rw [hq m hmn hmd]
        exact h.counted m hm hmn
  · rw [hmem] at hm hk
    by_cases hnothing : (s'.queues m).player = nothing
    · exact Or.inr ⟨hnothing, hwait ▸ hzero⟩
    · have hmd : m ≠ d := by
        rintro rfl
        exact hnothing hd'.1
      have hkd : k ≠ d := by
        rintro rfl
        exact hnothing (hpk.trans hd'.1)
      by_cases hmn : m = n
      · by_cases hkn : k = n
        · exact Or.inl (hmn.trans hkn.symm)
        · rw [hmn, hn'.1, hq k hkn hkd] at hpk
          exact absurd hpk.symm (hother k hk hkn hkd)
      · by_cases hkn : k = n
        · rw [hkn, hn'.1, hq m hmn hmd] at hpk
          exact absurd hpk (hother m hm hmn hmd)
        · rw [hq m hmn hmd, hq k hkn hkd] at hpk
          rw [hq m hmn hmd, hwait]
          exact h.unique m hm k hk hmn hkn hpk
  · rw [hwait] at ht
    rw [hmem]
    obtain ⟨m, hm, hmn, hpm⟩ := h.covered t ht
    by_cases hmd : m = d
    · refine ⟨n, h.mem, hn'.1.trans ?_⟩
      rw [← hp, ← hmd, hpm]
    · exact ⟨m, hm, by rw [hq m hmn hmd]; exact hpm⟩
  · rw [hmem] at hm
    by_cases hmn : m = n
    · rw [hmn, hn'.1]
      exact hnone
    · by_cases hmd : m = d
      · rw [hmd, hd'.2.2] at hc
        exact absurd hc (by simp)
      · rw [hq m hmn hmd] at hc ⊢
        exact h.numbered m hm hc

/-- Without an old queue the new player has no tasks. -/
lemma Vacated.accounted (h : s.Vacated n)
    (hnone : ∀ m ∈ s.members, m ≠ n → (s.queues m).player ≠ (s.queues n).player) :
    s.Accounted := by
  refine ⟨h.toWellFormed, fun m hm => ?_, fun m hm k hk hp => ?_, fun t ht => ?_, h.numbered⟩
  · by_cases hmn : m = n
    · have hzero : owed (s.queues n).player s.waiting = 0 := owed_eq_zero.mpr fun t ht hp => by
        obtain ⟨k, hk, hkn, hpk⟩ := h.covered t ht
        exact hnone k hk hkn (hpk.trans hp)
      rw [hmn, hzero, TQueue.balance, h.bg, h.num]
      rfl
    · exact h.counted m hm hmn
  · by_cases hmn : m = n
    · by_cases hkn : k = n
      · exact Or.inl (hmn.trans hkn.symm)
      · rw [hmn] at hp
        exact absurd hp.symm (hnone k hk hkn)
    · by_cases hkn : k = n
      · rw [hkn] at hp
        exact absurd hp (hnone m hm hmn)
      · exact h.unique m hm k hk hmn hkn hp
  · obtain ⟨m, hm, -, hp⟩ := h.covered t ht
    exact ⟨m, hm, hp⟩

/-- The state in which the connection has given its tasks away. -/
def handedIn (n : Nat) (newPlayer : Int) (s : TaskState) : TaskState :=
  (s.modify n fun q => { q with player := newPlayer }).keepOldTasks n (s.queues n).player

/-- What `handedIn` does to the queues. -/
structure HandsIn (n : Nat) (newPlayer : Int) (s s' : TaskState) : Prop where
  vacated : s'.Vacated n
  player : (s'.queues n).player = newPlayer
  active : s'.active = s.active
  waiting : s'.waiting = s.waiting
  old : ∀ m ∈ s.members, m ∈ s'.members ∧ (m ≠ n → s'.queues m = s.queues m)
  new : ∀ m ∈ s'.members, m ∈ s.members ∨ (s'.queues m).player = (s.queues n).player

section

variable {newPlayer : Int}

/-- A connection without tasks has nothing to give away. -/
lemma Accounted.handsIn_of_zero (h : s.Accounted) (hn : n ∈ s.members)
    (hold : (s.queues n).player ≠ nothing) (hnew : newPlayer ≠ nothing)
    (hzero : (s.queues n).numBgTasks = 0) :
    HandsIn n newPlayer s (s.modify n fun q => { q with player := newPlayer }) := by
  have hcount := h.counted n hn
  simp only [TQueue.balance, hzero] at hcount
  have hlen : (s.queues n).bg.length = 0 := by omega
  have howed : owed (s.queues n).player s.waiting = 0 := by omega
  have hqn : (s.modify n fun q => { q with player := newPlayer }).queues n
      = { s.queues n with player := newPlayer } := Function.update_self _ _ _
  have hq (m : Nat) (hm : m ≠ n) :
      (s.modify n fun q => { q with player := newPlayer }).queues m = s.queues m :=
    Function.update_of_ne hm _ _
  refine ⟨⟨h.toWellFormed.modify n fun _ => rfl, hn, ?_, ?_, fun m hm hmn => ?_,
    fun m hm k hk hmn hkn => ?_, fun t ht => ?_, fun m hm hc => ?_⟩, ?_, rfl, rfl,
    fun m hm => ⟨hm, hq m⟩, fun m hm => Or.inl hm⟩
  · rw [hqn]
    exact List.length_eq_zero_iff.mp hlen
  · rw [hqn]
    exact hzero
  · rw [hq m hmn]
    exact h.counted m hm
  · rw [hq m hmn, hq k hkn]
    exact h.unique m hm k hk
  · obtain ⟨m, hm, hp⟩ := h.covered t ht
    have hmn : m ≠ n := by
      rintro rfl
      exact owed_eq_zero.mp howed t ht hp.symm
    exact ⟨m, hm, hmn, by rw [hq m hmn]; exact hp⟩
  · by_cases hmn : m = n
    · rw [hmn, hqn]
      exact hnew
    · rw [hq m hmn] at hc ⊢
      exact h.numbered m hm hc
  · rw [hqn]

/-- The tasks of a connection get a new queue. -/
lemma Accounted.handsIn_of_ne_zero (h : s.Accounted) (hn : n ∈ s.members)
    (hold : (s.queues n).player ≠ nothing) (hnew : newPlayer ≠ nothing)
    (hne : newPlayer ≠ (s.queues n).player) (hnum : (s.queues n).numBgTasks ≠ 0) :
    HandsIn n newPlayer s (s.handedIn n newPlayer) := by
  have hqn : (s.modify n fun q => { q with player := newPlayer }).queues n
      = { s.queues n with player := newPlayer } := Function.update_self _ _ _
  have hnq : n ≠ s.nextQueue := by
    rintro rfl
    exact nextQueue_notMem h.toWellFormed hn
  have hcreate : (s.modify n fun q => { q with player := newPlayer }).findOrCreate (s.queues n).player
      = (s.nextQueue, (s.modify n fun q => { q with player := newPlayer }).createQueue
        (s.queues n).player) := by
    rcases findOrCreate_cases (s.modify n fun q => { q with player := newPlayer })
      (s.queues n).player with ⟨m, hm, hp, -, -⟩ | ⟨-, heq⟩
    · exfalso
      by_cases hmn : m = n
      · rw [hmn, hqn] at hp
        exact hne hp
      · rw [modify_queues, Function.update_of_ne hmn] at hp
        rcases h.unique m hm n hn hp with heq | ⟨hnothing, -⟩
        · exact hmn heq
        · exact hold (hp.symm.trans hnothing)
    · exact heq
  have hw : (s.handedIn n newPlayer).WellFormed := by
    unfold handedIn keepOldTasks
    rw [hqn, if_pos hnum, hcreate]
    apply WellFormed.moveBg
    apply WellFormed.modify
    · apply WellFormed.createQueue
      exact h.toWellFormed.modify n fun _ => rfl
    · exact fun _ => rfl
  have hmembers : (s.handedIn n newPlayer).members = s.nextQueue :: s.members := by
    unfold handedIn keepOldTasks
    rw [hqn, if_pos hnum, hcreate]
    rfl
  have hrest : (s.handedIn n newPlayer).waiting = s.waiting ∧
      (s.handedIn n newPlayer).active = s.active := by
    unfold handedIn keepOldTasks
    rw [hqn, if_pos hnum, hcreate]
    exact ⟨rfl, rfl⟩
  have hqueues : (s.handedIn n newPlayer).queues = Function.update (Function.update s.queues n
      { s.queues n with player := newPlayer, bg := [], numBgTasks := 0 }) s.nextQueue
      { newQueue (s.queues n).player with
        bg := (s.queues n).bg, numBgTasks := (s.queues n).numBgTasks } := by
    unfold handedIn keepOldTasks
    rw [hqn, if_pos hnum, hcreate]
    funext m
    simp only [moveBg, modify_queues, createQueue_queues, Function.update_apply, newQueue]
    by_cases hm : m = s.nextQueue
    · simp [hm, hnq, hnq.symm]
    · by_cases hmn : m = n
      · simp [hmn, hnq]
      · simp [hm, hmn]
  generalize s.handedIn n newPlayer = s' at *
  have hq (m : Nat) (hm : m ∈ s.members) (hmn : m ≠ n) : s'.queues m = s.queues m := by
    rw [hqueues, Function.update_of_ne, Function.update_of_ne hmn]
    rintro rfl
    exact nextQueue_notMem h.toWellFormed hm
  have hqn' : s'.queues n
      = { s.queues n with player := newPlayer, bg := [], numBgTasks := 0 } := by
    rw [hqueues, Function.update_of_ne hnq, Function.update_self]
  have hqq : s'.queues s.nextQueue = { newQueue (s.queues n).player with
      bg := (s.queues n).bg, numBgTasks := (s.queues n).numBgTasks } := by
    rw [hqueues, Function.update_self]
  -- the new queue stands for the old account
  have hplayer (m : Nat) (hm : m ∈ s'.members) (hmn : m ≠ n) : ∃ k ∈ s.members,
      (m = s.nextQueue ∧ k = n ∨ m = k ∧ k ≠ n) ∧
        (s'.queues m).player = (s.queues k).player ∧ (s'.queues m).balance = (s.queues k).balance := by
    rw [hmembers] at hm
    rcases List.mem_cons.mp hm with rfl | hm
    · exact ⟨n, hn, Or.inl ⟨rfl, rfl⟩, by rw [hqq]; rfl, by rw [hqq]; rfl⟩
    · exact ⟨m, hm, Or.inr ⟨rfl, hmn⟩, by rw [hq m hm hmn], by rw [hq m hm hmn]⟩
  refine ⟨⟨hw, hmembers ▸ List.mem_cons_of_mem _ hn, by rw [hqn'], by rw [hqn'],
    fun m hm hmn => ?_, fun m hm k hk hmn hkn hp => ?_, fun t ht => ?_, fun m hm hc => ?_⟩,
    by rw [hqn'], hrest.2, hrest.1, fun m hm => ⟨hmembers ▸ List.mem_cons_of_mem _ hm, hq m hm⟩,
    fun m hm => ?_⟩
  · obtain ⟨k, hk, -, hp, hb⟩ := hplayer m hm hmn
    rw [hp, hb, hrest.1]
    exact h.counted k hk
  · obtain ⟨m', hm', hcase, hpm, -⟩ := hplayer m hm hmn
    obtain ⟨k', hk', hcase', hpk, -⟩ := hplayer k hk hkn
    rw [hpm, hpk] at hp
    rw [hpm, hrest.1]
    refine (h.unique m' hm' k' hk' hp).imp_left fun heq => ?_
    subst heq
    rcases hcase with ⟨rfl, hm'n⟩ | ⟨rfl, hm'n⟩
    · rcases hcase' with ⟨rfl, -⟩ | ⟨rfl, hkn'⟩
      · rfl
      · exact absurd hm'n hkn'
    · rcases hcase' with ⟨rfl, hkn'⟩ | ⟨rfl, -⟩
      · exact absurd hkn' hm'n
      · rfl
  · rw [hrest.1] at ht
    obtain ⟨m, hm, hp⟩ := h.covered t ht
    by_cases hmn : m = n
    · refine ⟨s.nextQueue, hmembers ▸ List.mem_cons_self, hnq.symm, ?_⟩
      rw [hqq, ← hp, hmn]
      rfl
    · exact ⟨m, hmembers ▸ List.mem_cons_of_mem _ hm, hmn, by rw [hq m hm hmn]; exact hp⟩
  · rw [hmembers] at hm
    rcases List.mem_cons.mp hm with rfl | hm
    · rw [hqq] at hc
      exact absurd hc (by simp [newQueue])
    · by_cases hmn : m = n
      · rw [hmn, hqn']
        exact hnew
      · rw [hq m hm hmn] at hc ⊢
        exact h.numbered m hm hc
  · rw [hmembers] at hm
    rcases List.mem_cons.mp hm with rfl | hm
    · exact Or.inr (by rw [hqq]; rfl)
    · exact Or.inl hm

lemma Accounted.handsIn (h : s.Accounted) (hn : n ∈ s.members)
    (hold : (s.queues n).player ≠ nothing) (hnew : newPlayer ≠ nothing)
    (hne : newPlayer ≠ (s.queues n).player) : HandsIn n newPlayer s (s.handedIn n newPlayer) := by
  by_cases hzero : (s.queues n).numBgTasks = 0
  · have heq : s.handedIn n newPlayer = s.modify n fun q => { q with player := newPlayer } := by
      unfold handedIn keepOldTasks
      rw [if_neg]
      rw [modify_queues, Function.update_self]
      exact not_not_intro hzero
    rw [heq]
    exact h.handsIn_of_zero hn hold hnew hzero
  · exact h.handsIn_of_ne_zero hn hold hnew hne hzero

/-- The old queue of the player is emptied and closed. -/
lemma Vacated.redirect (h : s.Vacated n) {d : Nat} (hd : d ∈ s.members) (hdn : d ≠ n)
    (hp : (s.queues d).player = (s.queues n).player) (hnew : 0 ≤ (s.queues n).player)
    (hzero : owed nothing s.waiting = 0) : ((s.takeOver n d).redirect d).Accounted := by
  have hw : (s.takeOver n d).WellFormed := by
    unfold TaskState.takeOver
    apply WellFormed.modify
    · apply WellFormed.moveBg
      exact h.toWellFormed.modify n fun _ => rfl
    · exact fun _ => rfl
  have hqueues : (s.takeOver n d).queues = Function.update (Function.update s.queues n
      { s.queues n with
        bg := (s.queues n).bg ++ (s.queues d).bg, numBgTasks := (s.queues d).numBgTasks }) d
      { s.queues d with lines := [], player := nothing, bg := [], numBgTasks := 0 } := by
    funext m
    simp only [TaskState.takeOver, moveBg, modify_queues, Function.update_apply]
    by_cases hm : m = d
    · simp [hm, hdn]
    · by_cases hmn : m = n
      · simp [hmn, hdn, hdn.symm]
      · simp [hm, hmn]
  have hq (m : Nat) (hmn : m ≠ n) (hmd : m ≠ d) : (s.takeOver n d).queues m = s.queues m := by
    rw [hqueues, Function.update_of_ne hmd, Function.update_of_ne hmn]
  have hqn : ((s.takeOver n d).queues n).player = (s.queues n).player ∧
      ((s.takeOver n d).queues n).balance = (s.queues d).balance := by
    rw [hqueues, Function.update_of_ne hdn.symm, Function.update_self]
    simp [TQueue.balance, h.bg]
  have hqd : (s.takeOver n d).queues d
      = { s.queues d with lines := [], player := nothing, bg := [], numBgTasks := 0 } := by
    rw [hqueues, Function.update_self]
  have hmem : (s.takeOver n d).members = s.members := rfl
  have hwait : (s.takeOver n d).waiting = s.waiting := rfl
  generalize s.takeOver n d = s₁ at *
  unfold TaskState.redirect
  by_cases hc : (s₁.queues d).connected = true
  · rw [if_pos hc]
    unfold TaskState.freeTaskQueue
    dsimp only
    apply Accounted.ite_ensureUsage
    · refine h.takeOver hd hdn hp hnew ?_ hmem hwait ?_ ?_ (fun m hmn hmd => ?_) hzero
      · exact hw.modify d fun _ => rfl
      · rw [modify_queues, Function.update_of_ne hdn.symm]
        exact hqn
      · rw [modify_queues, Function.update_self, hqd]
        exact ⟨rfl, rfl, rfl⟩
      · rw [modify_queues, Function.update_of_ne hmd]
        exact hq m hmn hmd
    · change d ∈ s₁.members
      rw [hmem]
      exact hd
  · rw [if_neg hc]
    refine h.takeOver hd hdn hp hnew hw hmem hwait hqn ?_ hq hzero
    rw [hqd] at hc ⊢
    exact ⟨rfl, rfl, by simpa using hc⟩

lemma Accounted.login (h : s.Accounted) (hlog : s.canLogin n newPlayer)
    (hzero : s.findTqueue newPlayer ≠ none → owed nothing s.waiting = 0) :
    (s.login n newPlayer).Accounted := by
  obtain ⟨hrun, hneg, hconn, hnew⟩ := hlog
  have hact : n ∈ s.active := List.mem_of_mem_head? (h.running n hrun)
  have hmem := mem_members_of_active hact
  have hne : newPlayer ≠ (s.queues n).player := by omega
  have hnew' : newPlayer ≠ nothing := by
    unfold nothing
    omega
  have hin := h.handsIn hmem (h.numbered n hmem hconn) hnew' hne
  cases hdead : s.findTqueue newPlayer with
  | none =>
    have hlogin : s.login n newPlayer = s.handedIn n newPlayer := by
      rw [TaskState.login, hdead]
      rfl
    rw [hlogin]
    generalize s.handedIn n newPlayer = s₁ at *
    refine hin.vacated.accounted fun m hm hmn hp => ?_
    rw [hin.player] at hp
    rcases hin.new m hm with hms | hpm
    · rw [(hin.old m hms).2 hmn] at hp
      have hms : m ∈ s.active ++ s.idle :=
        List.mem_append.mpr (List.mem_append.mp hms).symm
      exact absurd hp (by simpa using List.find?_eq_none.mp hdead m hms)
    · exact hne (hp.symm.trans hpm)
  | some d =>
    have hlogin : s.login n newPlayer = ((s.handedIn n newPlayer).takeOver n d).redirect d := by
      rw [TaskState.login, hdead]
      rfl
    rw [hlogin]
    generalize s.handedIn n newPlayer = s₁ at *
    obtain ⟨hd, hpd⟩ := mem_members_of_findTqueue hdead
    have hdn : d ≠ n := by
      rintro rfl
      exact hne hpd.symm
    have hp : (s₁.queues d).player = (s₁.queues n).player := by
      rw [(hin.old d hd).2 hdn, hin.player, hpd]
    refine hin.vacated.redirect (hin.old d hd).1 hdn hp ?_ ?_
    · rw [hin.player]
      exact hnew
    · rw [hin.waiting]
      exact hzero (by simp [hdead])

end

/-! ### Runs -/

/-- The event keeps the accounts: it resumes no task of a registered queue, and a queue
without an owner and a waiting task of the programmer `NOTHING` do not meet. -/
def Balances (s : TaskState) : TaskEvent → Prop
  | .resumeTask i => s.external[i]? = none
  | .addTask _ _ progr _ limit =>
    progr = nothing → s.checkUserTaskLimit progr limit = true → s.Solitary
  | .login n newPlayer =>
    s.canLogin n newPlayer → s.findTqueue newPlayer ≠ none → ∀ t ∈ s.waiting, t.progr ≠ nothing
  | _ => True

lemma Accounted.addTask (h : s.Accounted) (kind : BgKind) (id : Nat) (progr startTime limit : Int)
    (hs : progr = nothing → s.checkUserTaskLimit progr limit = true → s.Solitary) :
    (s.addTask kind id progr startTime limit).Accounted := by
  unfold TaskState.addTask
  split
  · rename_i hlimit
    exact (h.enqueueWaiting _ fun hp => hs hp hlimit).birth
  · exact h

lemma Accounted.step (h : s.Accounted) {e : TaskEvent} (hb : s.Balances e) :
    (s.step e).Accounted := by
  cases e with
  | addTask kind id progr startTime limit => exact h.addTask kind id progr startTime limit hb
  | addExternal id progr => exact (h.setExternal _).birth
  | resumeTask i =>
    change (s.resumeTask i).Accounted
    unfold TaskState.resumeTask
    rw [show s.external[i]? = none from hb]
    exact h
  | doResume id now progr wizard => exact h.doResume id now progr wizard
  | killTask id owner wizard => exact h.killTask id owner wizard
  | newTaskQueue player =>
    unfold TaskState.step
    dsimp only
    split
    · exact h.newTaskQueue ‹_›
    · exact h
  | freeTaskQueue n =>
    unfold TaskState.step
    dsimp only
    split
    · exact h.freeTaskQueue ‹_›
    · exact h
  | enqueueInput n c atFront =>
    unfold TaskState.step
    dsimp only
    split
    · exact h.enqueueInput ‹_› c atFront
    · exact h
  | forceInput player c atFront => exact h.forceInput player c atFront
  | flushPlayer player => exact h.flushPlayer player
  | makeReadingTask player id => exact h.makeReadingTask player id
  | readInputNow player => exact h.readInputNow player
  | setHoldInput n value =>
    unfold TaskState.step
    dsimp only
    split
    · exact h.setHoldInput ‹_› value
    · exact h
  | setDisableOob n value =>
    unfold TaskState.step
    dsimp only
    split
    · exact h.setDisableOob ‹_› value
    · exact h
  | releaseTasks now =>
    unfold TaskState.step
    dsimp only
    split
    · exact h.releaseTasks now _ rfl
    · exact h
  | pickTask did =>
    unfold TaskState.step
    dsimp only
    split
    · exact h.pickTask ‹_› did
    · exact h
  | login n newPlayer =>
    unfold TaskState.step
    dsimp only
    split
    · rename_i hlog
      exact h.login hlog fun hdead => owed_eq_zero.mpr (hb hlog hdead)
    · exact h
  | finishTask elapsed => exact h.finishTask elapsed
  | freeQueues => exact h.freeQueues

instance (s : TaskState) : Decidable s.Solitary :=
  inferInstanceAs (Decidable (∀ n ∈ s.members, ∀ m ∈ s.members, _ → _ → _))

instance (s : TaskState) : ∀ e : TaskEvent, Decidable (s.Balances e)
  | .resumeTask i => inferInstanceAs (Decidable (s.external[i]? = none))
  | .addTask _ _ progr _ limit => inferInstanceAs
    (Decidable (progr = nothing → s.checkUserTaskLimit progr limit = true → s.Solitary))
  | .login n newPlayer => inferInstanceAs (Decidable
    (s.canLogin n newPlayer → s.findTqueue newPlayer ≠ none → ∀ t ∈ s.waiting, t.progr ≠ nothing))
  | .addExternal .. | .doResume .. | .killTask .. | .newTaskQueue .. | .freeTaskQueue ..
  | .enqueueInput .. | .forceInput .. | .flushPlayer .. | .makeReadingTask .. | .readInputNow ..
  | .setHoldInput .. | .setDisableOob .. | .releaseTasks .. | .pickTask .. | .finishTask ..
  | .freeQueues => inferInstanceAs (Decidable True)

/-- The forked and suspended tasks accounted to a queue: those of its player that wait and
those in its background list. -/
def accountedTo (s : TaskState) (n : Nat) : Nat :=
  owed (s.queues n).player s.waiting + (s.queues n).bg.length

/-- The number of queued tasks of a player. -/
def queuedTasks (s : TaskState) (player : Int) : Nat :=
  owed player s.waiting + (s.findTqueue player).elim 0 fun n => (s.queues n).bg.length

lemma Accounted.numBgTasks_eq (h : s.Accounted) (hn : n ∈ s.members) :
    (s.queues n).numBgTasks = s.accountedTo n := by
  have hcount := h.counted n hn
  simp only [TQueue.balance] at hcount
  simp only [accountedTo]
  omega

lemma Accounted.checkUserTaskLimit_iff (h : s.Accounted) (user limit : Int) :
    s.checkUserTaskLimit user limit = true ↔ limit < 0 ∨ (s.queuedTasks user : Int) < limit := by
  unfold checkUserTaskLimit queuedTasks
  cases hfind : s.findTqueue user with
  | none =>
    have hzero : owed user s.waiting = 0 := owed_eq_zero.mpr fun t ht hp => by
      obtain ⟨n, -, -, hfound, -⟩ := h.findOrCreate_of_waiting rfl ht
      rw [hp] at hfound
      exact absurd (hfind.symm.trans hfound) (by simp)
    rw [Bool.or_eq_true, decide_eq_true_iff, decide_eq_true_iff, hzero]
    rfl
  | some n =>
    obtain ⟨hn, hp⟩ := mem_members_of_findTqueue hfind
    have hnum := h.numBgTasks_eq hn
    simp [hnum, accountedTo, hp]

/-- In a run that keeps the accounts every queue counts its tasks, and a new task is admitted
if and only if the player has no limit or fewer tasks than the limit. -/
theorem numBgTasks_counts (es : List TaskEvent) (h : AllSteps Balances init es) :
    (∀ n ∈ (run es).members, ((run es).queues n).numBgTasks = (run es).accountedTo n ∧
      0 ≤ ((run es).queues n).numBgTasks) ∧
    ∀ user limit, (run es).checkUserTaskLimit user limit = true ↔
      limit < 0 ∨ ((run es).queuedTasks user : Int) < limit := by
  have hs : (run es).Accounted := run_induction accounted_init (fun _ _ hs hb => hs.step hb) h
  refine ⟨fun n hn => ⟨hs.numBgTasks_eq hn, ?_⟩, hs.checkUserTaskLimit_iff⟩
  rw [hs.numBgTasks_eq hn]
  exact Int.natCast_nonneg _

/-- Two forks, of which one runs, and the login of a player who had a queue. -/
theorem numBgTasks_counts_login :
    (run [.newTaskQueue (-2), .addTask .forked 7 5 0 2, .addTask .forked 8 5 100 2,
      .enqueueInput 0 ⟨.inband, [99, 111], 2⟩ false, .releaseTasks 0, .pickTask true, .login 0 5,
      .finishTask 1]).checkUserTaskLimit 5 2 = false := by
  have h := (numBgTasks_counts [.newTaskQueue (-2), .addTask .forked 7 5 0 2,
    .addTask .forked 8 5 100 2, .enqueueInput 0 ⟨.inband, [99, 111], 2⟩ false, .releaseTasks 0,
    .pickTask true, .login 0 5, .finishTask 1] (by decide)).2 5 2
  rw [← Bool.not_eq_true, h]
  decide

/-- A player with an old queue logs in while a task of the programmer `NOTHING` waits. The old
queue, now under that number, is charged when the task is killed. -/
theorem login_uncounts_task :
    ¬ ∀ (es : List TaskEvent), ∀ n ∈ (run es).members,
      ((run es).queues n).numBgTasks = (run es).accountedTo n ∧
        0 ≤ ((run es).queues n).numBgTasks := by
  intro h
  have hrun := h [.newTaskQueue (-2), .addTask .forked 8 (-1) 100 (-1),
    .addTask .forked 9 5 100 (-1), .enqueueInput 0 ⟨.inband, [99, 111], 2⟩ false, .pickTask true,
    .login 0 5, .killTask 8 0 true] 2 (by decide)
  exact absurd hrun (by decide)

end TaskState

end LambdaMOO
