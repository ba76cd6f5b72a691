import Mqtt.Proofs.Moments

/-!
# Clients that are gone

A destroyed client whose registries are empty and whose transport is closed stays so whatever is
called on it, and no event arises for it any more (`CallMove.vacant`).  Such is every client whose
thread has ended (`Reachable.vacant`).
-/

namespace Mqtt

/-- Whether nothing is left of a client. -/
structure Client.Vacant (c : Client) : Prop where
  destroyed : c.destroyed = true
  active : c.pending.active = []
  staged : c.pending.staged = []
  entries : c.subscriptions.entries = []
  closed : c.linked = false

theorem Client.Vacant.remove_eq_none {c : Client} (h : c.Vacant) (awaits : AckKind) (id : UInt16) :
    (c.pending.remove awaits id).1 = none := by
  simp [Pending.remove, Pending.take, Pending.oldest?, h.active, h.staged]

variable {σ : Type} {s s' : System σ}

/-- Nothing is left of a destroyed client that was released. -/
theorem System.vacant_release (destroyed : s.client.destroyed = true) :
    (s.close.change Client.release).client.Vacant :=
  ⟨by simpa [Client.release] using destroyed, rfl, rfl, rfl, by simp [Client.release]⟩

variable [Environment σ] {hand : Option Inbound}

/-- Calls leave a client gone, and no event arises. -/
theorem CallMove.vacant (move : CallMove s s') (h : s.client.Vacant) :
    s'.client.Vacant ∧ Unraised s s' := by
  have kept {f : Client → Client} (vacant : (f s.client).Vacant) :
      (s.change f).client.Vacant ∧ Unraised s (s.change f) := ⟨vacant, .of_log rfl⟩
  have alive (alive : s.client.destroyed = false) : False :=
    Bool.false_ne_true (alive.symm.trans h.destroyed)
  cases move with
  | outside => exact ⟨h, .of_log rfl⟩
  | remarked e remark =>
    refine ⟨h, .of_entry rfl ?_⟩
    cases e <;> first | exact id | exact absurd remark id
  | released => exact ⟨System.vacant_release h.destroyed, .close s⟩
  | @discarded awaits id t removed => cases (h.remove_eq_none awaits id).symm.trans removed
  | spoilt | awaited | asked | configured | willed | masked | passed =>
    exact kept ⟨h.destroyed, h.active, h.staged, h.entries, h.closed⟩
  | started first | condemned first | undone first => exact (alive first).elim
  | requested _ _ living | refused _ living | sent _ _ living => exact (alive living).elim

theorem Calls.vacant (calls : Calls s s') (h : s.client.Vacant) :
    s'.client.Vacant ∧ Unraised s s' := by
  induction calls with
  | refl => exact ⟨h, .of_log rfl⟩
  | tail _ move ih =>
    obtain ⟨vacant, quiet⟩ := move.vacant ih.1
    exact ⟨vacant, ih.2.trans quiet⟩

theorem CallMove.exited (move : CallMove s s') (gone : s'.client.place = .exited) :
    s.client.place = .exited := by
  have sent (t : System σ) {packet : Bytes} (gone : (t.afterSend packet).client.place = .exited) :
      t.client.place = .exited := by
    rw [System.afterSend_client, Client.pass_place] at gone
    split at gone <;> first | exact gone | cases gone
  cases move with
  | started => cases gone
  | released => simpa [Client.release] using gone
  | requested | refused | sent =>
    have before := sent _ gone
    exact before
  | _ => exact gone

/-- The thread has ended where it left, and nowhere else. -/
theorem ThreadMove.exited (move : ThreadMove s s') (gone : s'.client.place = .exited) :
    s.client.destroyed = true ∧ s' = s.close.change fun c =>
      { c.release with phase := .disconnected, place := .exited } := by
  cases move with
  | turn busy move =>
    have still := (move.turn.busy busy).1
    rw [still] at gone
    cases gone
  | left _ destroyed => exact ⟨destroyed, rfl⟩
  | parted busy | closed busy | entered _ busy | parked _ busy | began _ busy =>
    simp [Client.pass_place, busy.1] at gone
  | _ => cases gone

theorem Keeps.vacant : Keeps fun _ (s : System σ) =>
    s.client.place = .exited → s.client.Vacant where
  call _ _ move h gone := (move.vacant (h (move.exited gone))).1
  thread _ _ move _ gone := by
    obtain ⟨destroyed, rfl⟩ := move.exited gone
    have vacant := System.vacant_release destroyed
    exact ⟨vacant.destroyed, vacant.active, vacant.staged, vacant.entries, vacant.closed⟩
  accept _ _ _ _ _ gone := nomatch gone
  turn _ _ busy move _ gone := by
    have still := (move.busy busy).1
    rw [still] at gone
    cases gone
  lost _ _ busy _ _ _ gone := by
    simp [Client.pass_place, busy.1] at gone
  done _ h := h

/-- Nothing is left of a client whose thread has ended, at any moment. -/
theorem Reachable.vacant (reachable : Reachable s) {client : Client} {log : List Entry}
    (moment : s.Moment client log) (gone : client.place = .exited) : client.Vacant :=
  reachable.keepMoments (P := fun c _ => c.place = .exited → c.Vacant) Keeps.vacant
    (fun _ _ held => held) (fun _ _ gone => by cases gone) moment gone

end Mqtt
