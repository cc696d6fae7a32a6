import SystemTestSuite.GsmDaemon.Usock
import SystemTestSuite.Library.Machine

namespace SystemTestSuite.GsmDaemon

open Library

structure ReplyState where
  gu : GsmdUser
  sent : Bytes
  replies : List GsmdUcmd

inductive ReplyEvent
  | enqueue (ucmd : GsmdUcmd)
  | writable (rc : ℕ → ℤ)

def packets (ucmds : List GsmdUcmd) : Bytes := ucmds.flatMap GsmdUcmd.packet

def Bounded : (ℕ → ℤ) → List GsmdUcmd → Prop
  | _, [] => True
  | rc, ucmd :: ucmds => rc 0 ≤ ucmd.packet.length ∧ Bounded (fun n => rc (n + 1)) ucmds

def WholeWrites : (ℕ → ℤ) → List GsmdUcmd → Prop
  | _, [] => True
  | rc, ucmd :: ucmds => rc 0 ≤ 0 ∨
      rc 0 = ucmd.packet.length ∧ WholeWrites (fun n => rc (n + 1)) ucmds

def replyMachine : Machine ReplyState ReplyEvent where
  start s := s.gu.finishedUcmds = [] ∧ s.sent = [] ∧ s.replies = []
  enabled s
    | .enqueue _ => True
    | .writable rc => s.gu.fdWrite = true ∧ Bounded rc s.gu.finishedUcmds
  next s
    | .enqueue ucmd => ⟨usockCmdEnqueue ucmd s.gu, s.sent, s.replies ++ [ucmd]⟩
    | .writable rc =>
      let r := userCbWrite rc s.gu
      ⟨r.2, s.sent ++ r.1, s.replies⟩

def Intact (s : ReplyState) : Prop :=
  s.sent <+: packets s.replies ∧ (s.gu.finishedUcmds = [] → s.sent = packets s.replies)

def WritesWhole (s : ReplyState) : ReplyEvent → Prop
  | .enqueue _ => True
  | .writable rc => WholeWrites rc s.gu.finishedUcmds

def Balanced (s : ReplyState) : Prop := s.sent ++ packets s.gu.finishedUcmds = packets s.replies

def Repeats (s : ReplyState) : Prop :=
  (packets s.replies).length < (s.sent ++ packets s.gu.finishedUcmds).length

theorem packets_cons (ucmd : GsmdUcmd) (ucmds : List GsmdUcmd) :
    packets (ucmd :: ucmds) = ucmd.packet ++ packets ucmds := rfl

theorem packets_append (as bs : List GsmdUcmd) : packets (as ++ bs) = packets as ++ packets bs :=
  List.flatMap_append

theorem packet_length (ucmd : GsmdUcmd) :
    ucmd.packet.length = sizeofHdr + ucmd.hdr.len.toNat := by
  rw [GsmdUcmd.packet, GsmdUcmd.payload, List.length_append, GsmdMsgHdr.bytes_length,
    Memory.slice_length]

theorem userCbWriteLoop_full {rc : ℕ → ℤ} {ucmd : GsmdUcmd} (ucmds : List GsmdUcmd)
    (h : rc 0 = ucmd.packet.length) : userCbWriteLoop rc (ucmd :: ucmds) =
      (ucmd.packet ++ (userCbWriteLoop (fun n => rc (n + 1)) ucmds).1,
        (userCbWriteLoop (fun n => rc (n + 1)) ucmds).2) := by
  rw [packet_length, sizeofHdr] at h
  push_cast at h
  rw [userCbWriteLoop, if_neg (by omega), if_neg (by omega), if_neg]
  rw [sizeofHdr]
  push_cast
  omega

theorem userCbWriteLoop_stopped {rc : ℕ → ℤ} (ucmd : GsmdUcmd) (ucmds : List GsmdUcmd)
    (h : rc 0 ≤ 0) : userCbWriteLoop rc (ucmd :: ucmds) = ([], ucmd :: ucmds) := by
  rw [userCbWriteLoop]
  split_ifs with hneg hzero
  · rfl
  · rfl
  · omega
  · omega

theorem userCbWriteLoop_whole {rc : ℕ → ℤ} {ucmds : List GsmdUcmd} (h : WholeWrites rc ucmds) :
    (userCbWriteLoop rc ucmds).1 ++ packets (userCbWriteLoop rc ucmds).2 = packets ucmds := by
  induction ucmds generalizing rc with
  | nil => rfl
  | cons ucmd ucmds ih =>
    rcases h with hstop | ⟨hfull, hrest⟩
    · rw [userCbWriteLoop_stopped ucmd ucmds hstop]
      rfl
    · rw [userCbWriteLoop_full ucmds hfull, List.append_assoc, ih hrest, packets_cons]

theorem userCbWriteLoop_length {rc : ℕ → ℤ} {ucmds : List GsmdUcmd} (hb : Bounded rc ucmds) :
    (packets ucmds).length ≤ (userCbWriteLoop rc ucmds).1.length +
      (packets (userCbWriteLoop rc ucmds).2).length ∧
    (¬ WholeWrites rc ucmds → (packets ucmds).length < (userCbWriteLoop rc ucmds).1.length +
      (packets (userCbWriteLoop rc ucmds).2).length) := by
  induction ucmds generalizing rc with
  | nil => exact ⟨le_refl _, fun h => absurd trivial h⟩
  | cons ucmd ucmds ih =>
    obtain ⟨hle, hrest⟩ := hb
    by_cases hstop : rc 0 ≤ 0
    · rw [userCbWriteLoop_stopped ucmd ucmds hstop]
      exact ⟨by simp, fun h => absurd (Or.inl hstop) h⟩
    by_cases hfull : rc 0 = ucmd.packet.length
    · obtain ⟨hlen, hshort⟩ := ih hrest
      rw [userCbWriteLoop_full ucmds hfull]
      simp only [packets_cons, List.length_append]
      refine ⟨by omega, fun h => ?_⟩
      have h' := hshort (fun hw => h (Or.inr ⟨hfull, hw⟩))
      omega
    · have hloop : userCbWriteLoop rc (ucmd :: ucmds) =
          (ucmd.packet.take (rc 0).toNat, ucmd :: ucmds) := by
        rw [packet_length] at hfull
        push_cast at hfull
        rw [userCbWriteLoop, if_neg (by omega), if_neg (by omega), if_pos hfull]
      rw [hloop]
      simp only [List.length_take]
      constructor
      · omega
      · intro _
        omega

theorem balanced_next {s : ReplyState} {e : ReplyEvent} (h : Balanced s) (hok : WritesWhole s e) :
    Balanced (replyMachine.next s e) := by
  rw [Balanced] at h ⊢
  cases e with
  | enqueue ucmd =>
    change s.sent ++ packets (s.gu.finishedUcmds ++ [ucmd]) = packets (s.replies ++ [ucmd])
    rw [packets_append, packets_append, ← List.append_assoc, h]
  | writable rc =>
    change (s.sent ++ (userCbWriteLoop rc s.gu.finishedUcmds).1) ++
      packets (userCbWriteLoop rc s.gu.finishedUcmds).2 = packets s.replies
    rw [List.append_assoc, userCbWriteLoop_whole hok, h]

theorem next_length {s : ReplyState} {e : ReplyEvent} (he : replyMachine.enabled s e) :
    (s.sent ++ packets s.gu.finishedUcmds).length +
        (packets (replyMachine.next s e).replies).length ≤
      ((replyMachine.next s e).sent ++ packets (replyMachine.next s e).gu.finishedUcmds).length +
        (packets s.replies).length := by
  cases e with
  | enqueue ucmd =>
    change _ + (packets (s.replies ++ [ucmd])).length ≤
      (s.sent ++ packets (s.gu.finishedUcmds ++ [ucmd])).length + _
    simp only [packets_append, List.length_append]
    omega
  | writable rc =>
    have hlen := (userCbWriteLoop_length he.2).1
    change _ ≤ ((s.sent ++ (userCbWriteLoop rc s.gu.finishedUcmds).1) ++
      packets (userCbWriteLoop rc s.gu.finishedUcmds).2).length + _
    simp only [List.length_append]
    change _ + (packets s.replies).length ≤ _
    omega

theorem repeats_next {s : ReplyState} {e : ReplyEvent} (h : Repeats s)
    (he : replyMachine.enabled s e) : Repeats (replyMachine.next s e) := by
  have hlen := next_length he
  rw [Repeats] at h ⊢
  omega

theorem repeats_of_short {s : ReplyState} {e : ReplyEvent} (h : Balanced s)
    (he : replyMachine.enabled s e) (hshort : ¬ WritesWhole s e) :
    Repeats (replyMachine.next s e) := by
  cases e with
  | enqueue ucmd => exact absurd trivial hshort
  | writable rc =>
    have hlen := (userCbWriteLoop_length he.2).2 hshort
    have hbal := congrArg List.length h
    change (packets s.replies).length < ((s.sent ++ (userCbWriteLoop rc s.gu.finishedUcmds).1) ++
      packets (userCbWriteLoop rc s.gu.finishedUcmds).2).length
    simp only [List.length_append] at hbal ⊢
    omega

theorem balanced_start {s : ReplyState} (h : replyMachine.start s) : Balanced s := by
  obtain ⟨hfinished, hsent, hreplies⟩ := h
  rw [Balanced, hfinished, hsent, hreplies]
  rfl

theorem intact_of_balanced {s : ReplyState} (h : Balanced s) : Intact s := by
  rw [Balanced] at h
  constructor
  · exact ⟨_, h⟩
  · intro hempty
    rw [← h, hempty]
    exact (List.append_nil s.sent).symm

theorem whole_or_repeats {s t : ReplyState} {es : List ReplyEvent} (hs : Balanced s)
    (hrun : replyMachine.Run s es t) : replyMachine.RunWhile WritesWhole s es t ∨ Repeats t := by
  induction hrun with
  | nil => exact Or.inl .nil
  | @snoc es t e hr he _ ih =>
    rcases ih with hwhole | hrep
    · by_cases hok : WritesWhole t e
      · exact Or.inl (hwhole.snoc he hok)
      · have hbal : Balanced t := hwhole.invariant (fun _ _ h _ hok => balanced_next h hok) hs
        exact Or.inr (repeats_of_short hbal he hok)
    · exact Or.inr (repeats_next hrep he)

theorem not_intact_of_repeats {s : ReplyState} (h : Repeats s) (hempty : s.gu.finishedUcmds = []) :
    ¬ Intact s := by
  intro hintact
  rw [Repeats, hempty, hintact.2 hempty] at h
  exact absurd h (by simp [packets])

theorem replies_intact {s t : ReplyState} {es : List ReplyEvent} (hs : replyMachine.start s)
    (hrun : replyMachine.Run s es t) :
    (replyMachine.RunWhile WritesWhole s es t → replyMachine.Throughout Intact s es) ∧
      (t.gu.finishedUcmds = [] → replyMachine.Throughout Intact s es →
        replyMachine.RunWhile WritesWhole s es t) := by
  constructor
  · intro hwhole
    exact hwhole.throughout (fun _ _ h _ hok => balanced_next h hok)
      (fun _ => intact_of_balanced) (balanced_start hs)
  · intro hempty hthroughout
    rcases whole_or_repeats (balanced_start hs) hrun with hwhole | hrep
    · exact hwhole
    · have hlast := hthroughout es (List.prefix_refl es)
      rw [← hrun.after_eq] at hlast
      exact absurd hlast (not_intact_of_repeats hrep hempty)

def okReply : GsmdUcmd :=
  ⟨0, ⟨gsmdProtoVersion, gsmdMsgPassthrough, gsmdPassthroughResp, 0, 0, 3⟩,
    Memory.zero.store 0 [0x4f, 0x4b, 0]⟩

def newUser : ReplyState := ⟨⟨[], false, 0xffffffff⟩, [], []⟩

def firstWrite (n : ℕ) : ℤ := if n = 0 then 11 else 0

theorem replies_intact_ok : replyMachine.Throughout Intact newUser
    [.enqueue okReply, .enqueue okReply, .writable firstWrite, .writable (fun _ => 11)] := by
  have hwhole : replyMachine.RunWhile WritesWhole newUser
      [.enqueue okReply, .enqueue okReply, .writable firstWrite, .writable (fun _ => 11)] _ :=
    Machine.Checks.runWhile
      ⟨⟨trivial, trivial⟩, ⟨trivial, trivial⟩,
        ⟨⟨rfl, by decide, by decide, trivial⟩, Or.inr ⟨rfl, Or.inl (by decide)⟩⟩,
        ⟨⟨rfl, by decide, trivial⟩, Or.inr ⟨rfl, trivial⟩⟩, trivial⟩
  exact (replies_intact ⟨rfl, rfl, rfl⟩ hwhole.run).1 hwhole

theorem replies_repeated : ∃ t, replyMachine.start newUser ∧ replyMachine.Run newUser
      [.enqueue okReply, .writable (fun _ => 3), .writable (fun _ => 11)] t ∧
    ¬ replyMachine.Throughout Intact newUser
      [.enqueue okReply, .writable (fun _ => 3), .writable (fun _ => 11)] := by
  refine ⟨_, ⟨rfl, rfl, rfl⟩, Machine.Checks.runWhile
    ⟨⟨trivial, trivial⟩, ⟨⟨rfl, by decide, trivial⟩, trivial⟩,
      ⟨⟨rfl, by decide, trivial⟩, trivial⟩, trivial⟩, ?_⟩
  intro hthroughout
  have hlast := (hthroughout _ (List.prefix_refl _)).1
  exact absurd hlast (by decide)

end SystemTestSuite.GsmDaemon
