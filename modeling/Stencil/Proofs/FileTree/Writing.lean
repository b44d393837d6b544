import Stencil.FileTree.Opening
import Stencil.Proofs.FileTree.Places

/-!
# FileTree — Writing

What an output leaves in its file.  Its encoder sees every text, the refused ones too, and makes the
bytes of the texts behind one another (`Keeps.write`); a part of them has arrived in the file while
it is open, which every text keeps so (`Arriving.write`), and all of them when it is closed
(`Arriving.close`).  Nothing else in the tree changes.
-/

namespace Stencil

open FileTree

namespace Output

variable {codec : Codec} {out : Output}

/-- An output has room for any text, and an encoder for the texts that it takes. -/
structure Keeps (codec : Codec) (out : Output) : Prop where
  room : out.sink.room = none
  coding : out.sink.codec = some codec

namespace Keeps

theorem bytesOf_eq (h : Keeps codec out) : bytesOf out = codec.bytes out.seen := by
  rw [bytesOf, h.coding]

theorem arrived_eq (h : Keeps codec out) : arrived out = (backlog codec out.seen).arrived := by
  rw [arrived, h.coding]

theorem refusal?_eq (h : Keeps codec out) (text : String) :
    out.refusal? text =
      match codec.encode out.seen text with
      | .ok _ => none
      | .error reason => some reason := by
  cases hencode : codec.encode out.seen text <;>
    simp only [refusal?, h.room, refusal?.unencodable, h.coding, hencode]

/-- The encoder sees each text that is written, and a text is refused where it makes no bytes of
it. -/
theorem write (h : Keeps codec out) (text : String) :
    (out.write text).1.Keeps codec ∧ (out.write text).1.seen = text :: out.seen ∧
      (out.write text).1.name = out.name ∧
      (out.write text).2 =
        match codec.encode out.seen text with
        | .ok _ => none
        | .error reason => some (.writeFailed out.name reason) := by
  have hseen : (out.offer text).seen = text :: out.seen := by
    rw [offer, h.coding]
    rfl
  rw [Output.write, h.refusal?_eq]
  cases codec.encode out.seen text with
  | ok bytes => exact ⟨⟨h.room, h.coding⟩, hseen, rfl, rfl⟩
  | error reason => exact ⟨⟨h.room, h.coding⟩, hseen, rfl, rfl⟩

end Keeps

/-- To close an output changes none of what it has taken. -/
theorem close_fst (out : Output) :
    ∃ ending ended, out.close.1 = { out with ending := ending, ended := ended } := by
  unfold close
  split
  · exact ⟨_, _, rfl⟩
  · exact ⟨_, _, rfl⟩
  · split
    · exact ⟨_, _, rfl⟩
    · exact ⟨_, _, rfl⟩

end Output

namespace FileTree

variable {t : FileTree} {path : String} {q : Place} {codec : Codec} {out : Output}

/-! ### What has arrived -/

/-- No byte is lost between an encoder and the file. -/
theorem total_backlog (codec : Codec) (seen : List String) :
    (backlog codec seen).total = (codec.bytes seen).length := by
  induction seen with
  | nil => rfl
  | cons text before ih =>
      rw [backlog, Codec.bytes, List.length_append, ← ih]
      cases codec.encode before text with
      | ok bytes => exact Backlog.total_add _ _
      | error reason => rfl

/-- No more bytes arrive than have been written. -/
theorem arrived_le (h : out.Keeps codec) : arrived out ≤ (bytesOf out).length := by
  rw [h.arrived_eq, h.bytesOf_eq, ← total_backlog]
  exact Nat.le_add_left _ _

/-- To open an output into a file empties it. -/
theorem openOutput_eq_ok_iff {t' : FileTree} {encoding : Encoding} :
    t.openOutput path encoding = (t', .ok out) ↔
      holdsNull path = false ∧ ∃ q codec, t.LeadsTo path q ∧ encoding.codec? = some codec ∧
        t' = t.put q [] ∧ out = .fresh path ⟨none, some codec, none⟩ .close := by
  unfold openOutput
  constructor
  · intro h
    split at h
    · cases h
    next hnull =>
    split at h
    · cases h
    next hclear =>
    split at h
    · cases h
    next codec hcodec =>
    cases h
    obtain ⟨q, hq, hput⟩ := exists_of_bind_ok hclear
    cases hput
    exact ⟨by simpa using hnull, q, codec, leadsTo_of_target hq, hcodec, rfl, rfl⟩
  · rintro ⟨hnull, q, codec, hq, hcodec, rfl, rfl⟩
    rw [if_neg (by simp [hnull]), clear, hq.target_eq, hcodec]
    rfl

/-- Bytes put in behind those that are there. -/
theorem overwrite_take {old all : List UInt8} {start stop : Nat} (hold : old = all.take start)
    (hstart : start ≤ stop) (hall : start ≤ all.length) :
    overwrite old start ((all.take stop).drop start) = all.take stop := by
  have hlength : old.length = start := by rw [hold, List.length_take, Nat.min_eq_left hall]
  have htake : old = (all.take stop).take start := by
    rw [hold, List.take_take, Nat.min_eq_left hstart]
  calc overwrite old start ((all.take stop).drop start)
      = overwrite old old.length ((all.take stop).drop start) := by rw [hlength]
    _ = old ++ (all.take stop).drop start := overwrite_end ..
    _ = all.take stop := by rw [htake, List.take_append_drop]

/-- The file that a path leads to holds the bytes of an output that have arrived. -/
structure Arriving (t : FileTree) (path : String) (q : Place) (codec : Codec) (out : Output) :
    Prop where
  leads : t.LeadsTo path q
  keeps : out.Keeps codec
  content : t.content? q = some ((bytesOf out).take (arrived out))

namespace Arriving

theorem deliver (h : Arriving t path q codec out) {out' : Output} {stop : Nat}
    (hout : bytesOf out <+: bytesOf out') (hstop : arrived out ≤ stop) :
    (t.deliver path out' (arrived out) stop).content? q = some ((bytesOf out').take stop) ∧
      SameBut {q} t (t.deliver path out' (arrived out) stop) := by
  have hwrite : t.deliver path out' (arrived out) stop =
      t.put q ((bytesOf out').take stop) := by
    obtain ⟨more, hmore⟩ := hout
    have hold : (bytesOf out).take (arrived out) = (bytesOf out').take (arrived out) := by
      rw [← hmore, List.take_append_of_le_length (arrived_le h.keeps)]
    have hlength : arrived out ≤ (bytesOf out').length := by
      rw [← hmore, List.length_append]
      exact Nat.le_add_right_of_le (arrived_le h.keeps)
    unfold FileTree.deliver writeAt
    rw [h.leads.target_eq]
    simp only [bind, Except.bind, pure, Except.pure, h.content, Option.getD_some, hold,
      overwrite_take rfl hstop hlength]
  have hfile : (t.content? q).isSome = true := by
    rw [h.content]
    rfl
  rw [hwrite, content?_put, if_pos rfl]
  exact ⟨rfl, sameBut_put h.leads.noDirectory hfile _⟩

/-- More bytes arrive when a text is written, and none when it is refused. -/
theorem write (h : Arriving t path q codec out) (text : String) :
    ∃ t', t.writeOutput path out text = (t', out.write text) ∧
      Arriving t' path q codec (out.write text).1 ∧ SameBut {q} t t' := by
  obtain ⟨hkeeps, hseen, -, hcause⟩ := h.keeps.write text
  have hbytes : bytesOf (out.write text).1 =
      bytesOf out ++ (codec.encode out.seen text).toOption.getD [] := by
    rw [hkeeps.bytesOf_eq, hseen, h.keeps.bytesOf_eq, Codec.bytes]
  have harrived : (arrived (out.write text).1) = (backlog codec (text :: out.seen)).arrived := by
    rw [hkeeps.arrived_eq, hseen]
  rw [writeOutput]
  -- A text that is refused adds no bytes to those that wait, and none arrive of it.
  cases hencode : codec.encode out.seen text with
  | ok bytes =>
      rw [hencode] at hcause hbytes
      rw [backlog, hencode] at harrived
      rw [show out.write text = ((out.write text).1, none) from Prod.ext rfl hcause]
      have hle : arrived out ≤ arrived (out.write text).1 := by
        rw [harrived, h.keeps.arrived_eq]
        exact Backlog.arrived_le_add _ _
      obtain ⟨hcontent, hsame⟩ := h.deliver ⟨_, hbytes.symm⟩ hle
      exact ⟨_, rfl, ⟨hsame.leadsTo h.leads, hkeeps, hcontent⟩, hsame⟩
  | error reason =>
      rw [hencode] at hcause hbytes
      rw [backlog, hencode] at harrived
      rw [show out.write text = ((out.write text).1, some _) from Prod.ext rfl hcause]
      refine ⟨t, rfl, ⟨h.leads, hkeeps, ?_⟩, .refl _ _⟩
      dsimp only
      rw [hbytes, harrived, ← h.keeps.arrived_eq, h.content]
      exact congrArg (fun bytes => some (List.take _ bytes)) (List.append_nil _).symm

/-- All bytes have arrived when the output is closed. -/
theorem close (h : Arriving t path q codec out) :
    (t.closeOutput path out).content? q = some (bytesOf out) ∧
      SameBut {q} t (t.closeOutput path out) := by
  have hdeliver := h.deliver (List.prefix_refl _) (arrived_le h.keeps)
  rwa [List.take_length] at hdeliver

end Arriving

end FileTree

end Stencil
