import PacketCodec.Proofs.Bytes
import PacketCodec.Reader

/-!
# A reader is its window

A reader holds a buffer that was cut at the end of its window, and a
position in it; its errors are made from positions in the buffer. What it
does is a matter of the window alone, though. `Reader.View` is that window
as a plain byte string, with its position and the protocol, and says of
each operation what it gives. A reader gives the same
(`Reader.actsAs_view`). A part of a window is a window in turn, so the same
holds for the reader of a part of a part, however often parts are taken
(`Reader.actsAs_foldl_follow`); asking for a part that is not there changes
nothing.

In one place the position shows. The number of bytes that a read would have
needed is counted in positions of the buffer, and stops at the greatest of
them. For a read that ends behind it the number is too small by what is
missing (`Reader.slice_past_positionLimit`).
-/

namespace PacketCodec

/-! ## Fields of a buffer -/

namespace Bytes

theorem value_lt (order : ByteOrder) (bs : Bytes) : order.value bs < 256 ^ bs.length := by
  cases order with
  | big => exact bs.beNat_lt
  | little => exact bs.leNat_lt

/-- **A word of a buffer is the value of its octets**: the type of the word
has room for them. -/
theorem map_map_field {α : Type} {ofNat : Nat → α} {toNat : α → Nat} {width : Nat}
    (h : ∀ n < 256 ^ width, toNat (ofNat n) = n) (order : ByteOrder) (bs : Bytes) (offset : Nat) :
    ((bs.field offset width).map fun d => ofNat (order.value d)).map toNat
      = (bs.field offset width).map order.value := by
  unfold field
  split
  · next hfits =>
    have hlt := value_lt order (bs.clamp offset width)
    rw [Window.length_clamp hfits] at hlt
    exact congrArg Except.ok (h _ hlt)
  · rfl

/-- So many octets of a buffer are that many. -/
theorem map_bytes_octetsAt (n : Nat) (bs : Bytes) (offset : Nat) :
    (bs.octetsAt n offset).map Octets.bytes = bs.field offset n := by
  unfold octetsAt field
  by_cases h : offset + n ≤ bs.length
  · have hoctets : Octets.ofBytes? n (bs.clamp offset n)
        = some ⟨bs.clamp offset n, Window.length_clamp h⟩ := dif_pos (Window.length_clamp h)
    rw [if_pos h]
    simp only [bind, Except.bind, hoctets]
    rfl
  · rw [if_neg h]
    rfl

end Bytes

namespace Reader

/-! ## Plain windows -/

/-- **A window on its own**, with the protocol that reads it. -/
structure View extends Window where
  /-- The protocol that errors are raised for. -/
  protocol : String

namespace View

/-- Number of bytes that a read of `width` bytes at `start` asks for: all
up to its end, as far as there are positions. -/
def needed (v : View) (start width : Nat) : Nat :=
  if v.offset + start + width ≤ positionLimit then start + width else positionLimit - v.offset

/-- The number of bytes is the end of the read, or the greatest position
before it, less the position of the window. -/
theorem needed_eq_min (v : View) (start width : Nat) :
    v.needed start width = min (v.offset + start + width) positionLimit - v.offset := by
  unfold needed
  split <;> omega

/-- The error that the window has fewer than `need` bytes. -/
def tooFew (v : View) (need : Nat) : DecodeError :=
  { protocol := v.protocol, offset := v.offset
    dump := DecodeError.dumpOf v.bytes
    fault := .tooShort need v.bytes.length }

/-- **A read of `width` bytes at `start`**: their value, or the error that
they are not all there. -/
def read {α : Type} (v : View) (start width : Nat) (value : Bytes → α) : Except DecodeError α :=
  if start + width ≤ v.bytes.length then .ok (value ((v.bytes.drop start).take width))
  else .error (v.tooFew (v.needed start width))

/-- **The `length` bytes at `start` as a window**, for another protocol. -/
def sub (v : View) (protocol : String) (start length : Nat) : Except DecodeError View :=
  if start + length ≤ v.bytes.length then
    .ok ⟨⟨v.offset + start, (v.bytes.drop start).take length⟩, protocol⟩
  else
    .error
      { protocol, offset := v.offset + start
        dump := DecodeError.dumpOf (v.bytes.drop start)
        fault := .inconsistentLength "window" length (v.bytes.length - start) }

end View

/-- The window of a reader. -/
def view (r : Reader) : View := ⟨r.window, r.protocol⟩

/-- **A reader does what a plain window says**: what it reads, and the parts
it takes, are those of the window, and so are the errors. -/
structure ActsAs (r : Reader) (v : View) : Prop where
  /-- It is where the window is. -/
  offset : r.offset = v.offset
  /-- It has as many bytes. -/
  length : r.length = v.bytes.length
  /-- It reads octets, -/
  u8 : ∀ start, (r.u8 start).map UInt8.toNat = v.read start 1 Bytes.beNat
  /-- words of two octets in either order, -/
  u16 : ∀ order start, (r.u16 order start).map UInt16.toNat = v.read start 2 order.value
  /-- words of three octets in network order, -/
  u24 : ∀ start, (r.u24 start).map UInt32.toNat = v.read start 3 Bytes.beNat
  /-- words of four octets in either order, -/
  u32 : ∀ order start, (r.u32 order start).map UInt32.toNat = v.read start 4 order.value
  /-- words of eight octets in network order, -/
  u64 : ∀ start, (r.u64 start).map UInt64.toNat = v.read start 8 Bytes.beNat
  /-- addresses of any size, -/
  octets : ∀ n start, (r.octets n start).map Octets.bytes = v.read start n id
  /-- stretches of any length, -/
  slice : ∀ start need, r.slice start need = v.read start need id
  /-- and everything from a position on, -/
  rest : ∀ start, r.rest start
    = if start ≤ v.bytes.length then .ok (v.bytes.drop start) else .error (v.tooFew start)
  /-- and it can ask for a number of bytes first. -/
  require : ∀ need, r.require need
    = if need ≤ v.bytes.length then .ok () else .error (v.tooFew need)
  /-- The reader of a part has the part as its window. -/
  sub : ∀ protocol start length,
    (r.sub protocol start length).map view = v.sub protocol start length
  /-- A part lies inside the window. -/
  within : ∀ protocol start length s, r.sub protocol start length = .ok s →
    v.offset ≤ s.offset ∧ s.offset + s.length ≤ v.offset + v.bytes.length

variable {r : Reader}

/-! ## Reads -/

theorem bytes_view (r : Reader) : r.view.bytes = r.buf.drop r.offset := rfl

theorem length_view (r : Reader) : r.view.bytes.length = r.buf.length - r.offset :=
  List.length_drop

theorem map_located {α β : Type} (r : Reader) (x : Except OutOfBounds α) (f : α → β) :
    (r.located x).map f = r.located (x.map f) := by
  cases x <;> rfl

/-- **Reading a field of the buffer** is reading the window. -/
theorem located_field {α : Type} (r : Reader) (start width : Nat) (value : Bytes → α) :
    r.located ((r.buf.field (r.offset + start) width).map value)
      = r.view.read start width value := by
  have hin := r.offset_le
  have hlength := length_view r
  unfold Bytes.field View.read
  by_cases h : start + width ≤ r.view.bytes.length
  · rw [if_pos h, if_pos (by omega), bytes_view, List.drop_drop]
    rfl
  · rw [if_neg h, if_neg (by omega), View.needed_eq_min]
    rfl

theorem located_field_id (r : Reader) (start width : Nat) :
    r.located (r.buf.field (r.offset + start) width) = r.view.read start width id := by
  rw [← located_field]
  cases r.buf.field (r.offset + start) width <;> rfl

/-- Reading a word is reading its value. -/
theorem map_located_word {α : Type} {ofNat : Nat → α} {toNat : α → Nat} {width : Nat}
    (h : ∀ n < 256 ^ width, toNat (ofNat n) = n) (order : ByteOrder) (r : Reader) (start : Nat) :
    (r.located ((r.buf.field (r.offset + start) width).map fun d => ofNat (order.value d))).map
        toNat = r.view.read start width order.value := by
  rw [map_located, Bytes.map_map_field h, located_field]

theorem require_eq (r : Reader) (need : Nat) :
    r.require need
      = if need ≤ r.view.bytes.length then .ok () else .error (r.view.tooFew need) := by
  unfold require Reader.length
  rw [← length_view]
  by_cases h : need ≤ r.view.bytes.length
  · rw [if_pos h, if_neg (Nat.not_lt.mpr h)]
  · rw [if_neg h, if_pos (Nat.not_le.mp h)]
    rfl

theorem rest_eq (r : Reader) (start : Nat) :
    r.rest start = if start ≤ r.view.bytes.length then .ok (r.view.bytes.drop start)
      else .error (r.view.tooFew start) := by
  unfold rest
  rw [require_eq, bytes_view, List.drop_drop]
  split <;> rfl

/-! ## Parts -/

/-- The window of a reader is the stretch of the buffer that it was made
for. -/
theorem view_of_ofBuffer {protocol : String} {buf : Bytes} {offset length : Nat}
    (h : ofBuffer protocol buf offset length = .ok r) :
    r.view = ⟨⟨offset, buf.clamp offset length⟩, protocol⟩ := by
  unfold ofBuffer at h
  split at h
  · cases h
    show (⟨⟨offset, (buf.take (offset + length)).drop offset⟩, protocol⟩ : View) = _
    rw [List.drop_take, Nat.add_sub_cancel_left]
    rfl
  · cases h

/-- **The part of a window that a reader takes.** -/
theorem map_view_sub (r : Reader) (protocol : String) (start length : Nat) :
    (r.sub protocol start length).map view = r.view.sub protocol start length := by
  have hin := r.offset_le
  have hlength := length_view r
  by_cases h : start + length ≤ r.view.bytes.length
  · obtain ⟨s, hs⟩ : ∃ s, r.sub protocol start length = .ok s :=
      ⟨_, dif_pos (by omega)⟩
    rw [hs, View.sub, if_pos h, bytes_view, List.drop_drop]
    exact congrArg Except.ok (view_of_ofBuffer hs)
  · -- The buffer ends where the window does, so do the bytes from the part on.
    have hrest : r.buf.clamp (r.offset + start) (r.buf.length - (r.offset + start))
        = r.view.bytes.drop start := by
      rw [Bytes.clamp, ← List.length_drop, List.take_length, bytes_view, List.drop_drop]
    have hs : r.sub protocol start length
        = .error (Window.outside protocol r.buf (r.offset + start) length) := dif_neg (by omega)
    rw [hs, View.sub, if_neg h, ← hrest, hlength, Nat.sub_sub]
    rfl

theorem within_of_sub {protocol : String} {start length : Nat} {s : Reader}
    (h : r.sub protocol start length = .ok s) :
    r.view.offset ≤ s.offset ∧ s.offset + s.length ≤ r.view.offset + r.view.bytes.length := by
  have hsub := map_view_sub r protocol start length
  rw [h] at hsub
  unfold View.sub at hsub
  split at hsub
  · next hfits =>
    have hview : s.view = ⟨⟨r.view.offset + start, r.view.bytes.clamp start length⟩, protocol⟩ :=
      Except.ok.inj hsub
    have hoffset : s.offset = r.view.offset + start := congrArg (fun v => v.offset) hview
    have hlength : s.length = length := by
      rw [Reader.length, ← length_view, hview, Window.length_clamp hfits]
    omega
  · cases hsub

/-- **A reader does what its window says.** -/
theorem actsAs_view (r : Reader) : r.ActsAs r.view where
  offset := rfl
  length := (length_view r).symm
  u8 := map_located_word (fun _ => Nat.mod_eq_of_lt) .big r
  u16 := fun order => map_located_word (fun _ => Nat.mod_eq_of_lt) order r
  u24 := map_located_word (fun _ h => Nat.mod_eq_of_lt (Nat.lt_trans h (by decide))) .big r
  u32 := fun order => map_located_word (fun _ => Nat.mod_eq_of_lt) order r
  u64 := map_located_word (fun _ => Nat.mod_eq_of_lt) .big r
  octets := fun n start => by
    rw [octets, map_located, Bytes.map_bytes_octetsAt, located_field_id]
  slice := located_field_id r
  rest := rest_eq r
  require := require_eq r
  sub := map_view_sub r
  within := fun _ _ _ _ => within_of_sub

/-! ## Parts of parts -/

/-- **A part that is asked for**, with the protocol that is to read it. -/
structure Part where
  /-- The protocol. -/
  protocol : String
  /-- Where the part starts in the window. -/
  start : Nat
  /-- Number of bytes. -/
  length : Nat

/-- The reader of a part; a reader that does not have it stays as it is. -/
def follow (r : Reader) (p : Part) : Reader :=
  (r.sub p.protocol p.start p.length).toOption.getD r

/-- The part of a window; a window that does not have it stays as it is. -/
def View.narrow (v : View) (p : Part) : View :=
  (v.sub p.protocol p.start p.length).toOption.getD v

theorem view_follow (r : Reader) (p : Part) : (r.follow p).view = r.view.narrow p := by
  unfold follow View.narrow
  rw [← map_view_sub]
  cases r.sub p.protocol p.start p.length <;> rfl

/-- **Any number of parts**, one out of the other. -/
theorem view_foldl_follow (r : Reader) (parts : List Part) :
    (parts.foldl follow r).view = parts.foldl View.narrow r.view := by
  induction parts generalizing r with
  | nil => rfl
  | cons p parts ih => rw [List.foldl_cons, List.foldl_cons, ih, view_follow]

/-- **A reader behaves as its window.** Whatever buffer it was made for, and
however many parts were asked for since, one out of the other, it does what
the plain window says that is left: the stretch of the buffer, with every
part taken that was there. A read gives its value exactly when it ends
inside the window. Otherwise it is an error about the window, with its
position and length, and with the number of bytes up to the end of the
read, which stops where the positions do. -/
theorem actsAs_foldl_follow {protocol : String} {buf : Bytes} {offset length : Nat}
    (h : ofBuffer protocol buf offset length = .ok r) (parts : List Part) :
    (parts.foldl follow r).ActsAs
      (parts.foldl View.narrow ⟨⟨offset, buf.clamp offset length⟩, protocol⟩) := by
  rw [← view_of_ofBuffer h, ← view_foldl_follow]
  exact actsAs_view _

/-- A part of a part, with one in between that is not there: the window ends
before the buffer does. -/
theorem actsAs_foldl_follow_part_of_part :
    let buf : Bytes := [0, 1, 2, 3, 4, 5, 6, 7, 8, 9, 10, 11]
    ∃ r, ofBuffer "Frame" buf 2 9 = .ok r
      ∧ ∃ s, [⟨"Header", 1, 6⟩, ⟨"Trailer", 5, 2⟩, ⟨"Word", 2, 4⟩].foldl follow r = s
        ∧ (s.u32 .little 0).map UInt32.toNat = .ok 0x08070605
        ∧ (s.u16 .big 3).map UInt16.toNat = .error ⟨"Word", 5, "05060708", .tooShort 5 4⟩
        ∧ s.rest 5 = .error ⟨"Word", 5, "05060708", .tooShort 5 4⟩ := by
  intro buf
  have hbuf : ofBuffer "Frame" buf 2 9 = .ok ⟨"Frame", buf.take 11, 2, by decide⟩ := rfl
  have hacts := actsAs_foldl_follow hbuf [⟨"Header", 1, 6⟩, ⟨"Trailer", 5, 2⟩, ⟨"Word", 2, 4⟩]
  exact ⟨_, hbuf, _, rfl, (hacts.u32 .little 0).trans (by decide +kernel),
    (hacts.u16 .big 3).trans (by decide +kernel), (hacts.rest 5).trans (by decide +kernel)⟩

/-- **A stretch that ends behind the greatest position**: neither where it
starts nor how long it is exceeds it, and still the error asks for two bytes
fewer than the stretch has. -/
theorem slice_past_positionLimit :
    ∃ r, ofBuffer "Frame" [0, 1, 2, 3] 2 2 = .ok r
      ∧ r.offset + 0 ≤ positionLimit ∧ 0 + positionLimit ≤ positionLimit
      ∧ r.slice 0 positionLimit
        = .error ⟨"Frame", 2, "0203", .tooShort (positionLimit - 2) 2⟩
      ∧ positionLimit - 2 ≠ 0 + positionLimit := by
  have hbuf : ofBuffer "Frame" [0, 1, 2, 3] 2 2
      = .ok ⟨"Frame", [0, 1, 2, 3], 2, by decide⟩ := rfl
  exact ⟨_, hbuf, by decide, by decide, by decide +kernel, by decide⟩

end Reader

end PacketCodec
