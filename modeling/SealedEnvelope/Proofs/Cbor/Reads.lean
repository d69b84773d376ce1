import SealedEnvelope.Proofs.Cbor.Head
import SealedEnvelope.Cbor.Decoder
import SealedEnvelope.Cbor.Encoder

/-!
Decoders that read back what was written. `Reads` puts decoder, bytes and value
together; it is closed under the ways that decoders are built, and each decoder
reads what its encoder writes.
-/

namespace SealedEnvelope.Cbor

/-- The decoder takes exactly `item`, whatever follows, and gives `x`. As many steps as the item
has bytes are enough for it. -/
def Reads {α : Type} (d : Decoder α) (item : Bytes) (x : α) : Prop :=
  ∀ fuel rest, item.length ≤ fuel → d fuel (item ++ rest) = some (x, rest)

namespace Reads

variable {α β : Type} {d : Decoder α} {f : α → Decoder β} {item next : Bytes} {x : α} {y : β}

theorem pure (x : α) : Reads (Pure.pure x) [] x := fun _ _ _ => rfl

theorem bind (hd : Reads d item x) (hf : Reads (f x) next y) :
    Reads (d >>= f) (item ++ next) y := by
  intro fuel rest hfuel
  rw [List.length_append] at hfuel
  change (d fuel (item ++ next ++ rest)).bind (fun (a, left) => f a fuel left) = _
  rw [List.append_assoc, hd fuel _ (by omega), Option.bind_some]
  exact hf fuel rest (by omega)

/-- A step that takes nothing more. -/
theorem bind_pure (hd : Reads d item x) (hf : Reads (f x) [] y) : Reads (d >>= f) item y := by
  have hbind := hd.bind hf
  rwa [List.append_nil] at hbind

theorem map (g : α → β) (hd : Reads d item x) : Reads (g <$> d) item (g x) := by
  intro fuel rest hfuel
  change (d fuel (item ++ rest)).bind (fun (a, left) => some (g a, left)) = _
  rw [hd fuel rest hfuel, Option.bind_some]

/-- A whole input is read from its front. -/
theorem decode? (hd : Reads d item x) (rest : Bytes) : d.decode? (item ++ rest) = some x := by
  rw [Decoder.decode?, hd _ rest (by rw [List.length_append]; omega), Option.map_some]

end Reads

section Numbers

theorem reads_head {major n : Nat} {head : Head} (hmajor : major < 7) (hn : n < UInt64.size)
    (hhead : assembleHead major 0 (some n) = some head) :
    Reads Decoder.head (encodeHead major n) head := by
  intro fuel rest _
  rw [Decoder.head, readHead_encodeHead hmajor hn, hhead, Option.map_some]

/-- A head that is no tag is found at once. -/
theorem reads_pastTags {stays : Nat → Bool} {major n : Nat} {head : Head} (hmajor : major < 6)
    (hn : n < UInt64.size) (hhead : assembleHead major 0 (some n) = some head) :
    Reads (Decoder.pastTags stays) (encodeHead major n) head := by
  intro fuel rest hfuel
  have hpos := length_encodeHead_pos major n
  obtain ⟨fuel, rfl⟩ : ∃ less, fuel = less + 1 := ⟨fuel - 1, by omega⟩
  have hread : readHead (encodeHead major n ++ rest) = some (head, rest) := by
    rw [readHead_encodeHead (by omega) hn, hhead, Option.map_some]
  rw [Decoder.pastTags, Decoder.pastTags.go, hread]
  split
  case h_1 tag rest' htag =>
    -- a tag would have the sixth major type
    interval_cases major <;> cases hhead <;> cases htag
  case h_2 => rfl

theorem reads_untagged {major n : Nat} {head : Head} (hmajor : major < 6)
    (hn : n < UInt64.size) (hhead : assembleHead major 0 (some n) = some head) :
    Reads Decoder.untagged (encodeHead major n) head :=
  reads_pastTags hmajor hn hhead

theorem reads_unsigned {n : Nat} (hn : n < UInt64.size) :
    Reads Decoder.unsigned (encodeUnsigned n) n := by
  have hhead : Reads (Decoder.pastTags fun tag => tag == 2 || tag == 3) (encodeUnsigned n)
      (.unsigned n) := reads_pastTags (by decide) hn rfl
  exact hhead.bind_pure (Reads.pure n)

theorem reads_below {n limit : Nat} (hn : n < UInt64.size) (hlimit : n < limit) :
    Reads (Decoder.below limit) (encodeUnsigned n) n := by
  apply (reads_unsigned hn).bind_pure
  rw [if_pos hlimit]
  exact Reads.pure n

theorem reads_byte (byte : UInt8) : Reads Decoder.byte (encodeUnsigned byte.toNat) byte := by
  have hbyte : byte.toNat < 256 := byte.toNat_lt
  have hread := (reads_below (n := byte.toNat) (by change _ < 18446744073709551616; omega)
    byte.toNat_lt).map UInt8.ofNat
  rwa [UInt8.ofNat_toNat] at hread

theorem reads_word (word : UInt32) : Reads Decoder.word (encodeUnsigned word.toNat) word := by
  have hword : word.toNat < 4294967296 := word.toNat_lt
  have hread := (reads_below (n := word.toNat) (by change _ < 18446744073709551616; omega)
    word.toNat_lt).map UInt32.ofNat
  rwa [UInt32.ofNat_toNat] at hread

end Numbers

section Repetition

variable {σ : Type}

/-- A step taken once for each of the items, which are not empty. -/
inductive ReadsAll (step : σ → Decoder σ) : σ → List Bytes → σ → Prop where
  | nil (s : σ) : ReadsAll step s [] s
  | cons {s t last : σ} {item : Bytes} {items : List Bytes} :
      Reads (step s) item t → item ≠ [] → ReadsAll step t items last →
        ReadsAll step s (item :: items) last

theorem ReadsAll.ne_nil {step : σ → Decoder σ} {s last : σ} {items : List Bytes}
    (h : ReadsAll step s items last) : ∀ item ∈ items, item ≠ [] := by
  induction h with
  | nil => exact List.forall_mem_nil _
  | cons hread hne hrest ih => exact List.forall_mem_cons.mpr ⟨hne, ih⟩

theorem length_le_flatten {items : List Bytes} (h : ∀ item ∈ items, item ≠ []) :
    items.length ≤ items.flatten.length := by
  have hcount : items.length = (items.map List.length).length := (List.length_map _).symm
  rw [List.length_flatten, hcount]
  apply List.length_le_sum_of_one_le
  intro n hn
  obtain ⟨item, hitem, rfl⟩ := List.mem_map.mp hn
  exact List.length_pos_iff.mpr (h item hitem)

/-- Every step of a loop takes one item; as each has a byte, the steps do not run out. -/
theorem ReadsAll.go {step : σ → Decoder σ} {s last : σ} {items : List Bytes}
    (h : ReadsAll step s items last) {bound fuel : Nat} (hbound : items.flatten.length ≤ bound)
    (hfuel : items.length ≤ fuel) (rest : Bytes) :
    Decoder.iterate.go step bound fuel (some items.length) s (items.flatten ++ rest) =
      some (last, rest) := by
  induction h generalizing fuel with
  | nil s =>
      rw [List.length_nil, Decoder.iterate.go.eq_def]
      rfl
  | cons hread hne hrest ih =>
      rw [List.flatten_cons, List.length_append] at hbound
      rw [List.length_cons] at hfuel
      obtain ⟨fuel, rfl⟩ : ∃ less, fuel = less + 1 := ⟨fuel - 1, by omega⟩
      rw [List.length_cons, List.flatten_cons, List.append_assoc, Decoder.iterate.go,
        hread bound _ (by omega)]
      exact ih (by omega) (by omega)

theorem ReadsAll.iterate {step : σ → Decoder σ} {s last : σ} {items : List Bytes}
    (h : ReadsAll step s items last) :
    Reads (Decoder.iterate step (some items.length) s) items.flatten last :=
  fun _ rest hfuel => h.go hfuel ((length_le_flatten h.ne_nil).trans hfuel) rest

/-- An array of items, each of which `item` reads as its value. -/
theorem reads_elements {α : Type} {item : Decoder α} {encode : α → Bytes} {values : List α}
    (hread : ∀ value ∈ values, Reads item (encode value) value)
    (hne : ∀ value ∈ values, encode value ≠ []) :
    Reads (Decoder.elements item (some values.length)) (values.flatMap encode) values := by
  have hall (values done : List α) (hread : ∀ value ∈ values, Reads item (encode value) value)
      (hne : ∀ value ∈ values, encode value ≠ []) :
      ReadsAll (Decoder.collect item) done (values.map encode) (values.reverse ++ done) := by
    induction values generalizing done with
    | nil => exact .nil done
    | cons value values ih =>
        rw [List.forall_mem_cons] at hread hne
        have hrest := ih (value :: done) hread.2 hne.2
        rw [List.reverse_cons, List.append_assoc]
        exact .cons (hread.1.bind_pure (Reads.pure _)) hne.1 hrest
  have hloop := (hall values [] hread hne).iterate
  rw [List.length_map, List.append_nil, ← List.flatMap_def] at hloop
  apply hloop.bind_pure
  rw [List.reverse_reverse]
  exact Reads.pure values

end Repetition

section Strings

theorem encodeUnsigned_ne_nil (n : Nat) : encodeUnsigned n ≠ [] :=
  List.ne_nil_of_length_pos (length_encodeHead_pos 0 n)

theorem reads_byteList {bytes : Bytes} (h : bytes.length < UInt64.size) :
    Reads Decoder.byteList (encodeByteList bytes) bytes := by
  apply Reads.bind (reads_untagged (by decide) h rfl)
  exact reads_elements (fun byte _ => reads_byte byte) fun byte _ => encodeUnsigned_ne_nil _

theorem reads_octets {n : Nat} (x : Octets n) (h : n < UInt64.size) :
    Reads (Decoder.octets n) (encodeByteList x.toBytes) x := by
  have helements : Reads (Decoder.elements Decoder.byte (some n))
      (x.toBytes.flatMap fun byte => encodeUnsigned byte.toNat) x.toBytes := by
    have hbytes : ∀ byte ∈ x.toBytes, Reads Decoder.byte (encodeUnsigned byte.toNat) byte :=
      fun byte _ => reads_byte byte
    have hread := reads_elements hbytes fun byte _ => encodeUnsigned_ne_nil _
    rwa [x.length_toBytes] at hread
  have hlength : x.toBytes.length < UInt64.size := by rwa [x.length_toBytes]
  apply Reads.bind (reads_untagged (by decide) hlength rfl)
  simp only [x.length_toBytes, lt_irrefl, if_false]
  apply helements.bind_pure
  rw [Octets.ofBytes?_toBytes]
  exact Reads.pure x

theorem reads_take (bytes : Bytes) : Reads (Decoder.take bytes.length) bytes bytes :=
  fun _ rest _ => splitExactly_append rfl rest

theorem toList_loop (bytes : ByteArray) (i : Nat) (done : List UInt8) :
    ByteArray.toList.loop bytes i done = done.reverse ++ bytes.data.toList.drop i := by
  fun_induction ByteArray.toList.loop bytes i done with
  | case1 i done hlt ih =>
      have hlt' : i < bytes.data.toList.length := hlt
      rw [ih, List.reverse_cons, List.append_assoc, List.drop_eq_getElem_cons hlt']
      congr 2
      simp [ByteArray.get!, getElem!_pos, hlt]
  | case2 i done hge =>
      rw [List.drop_of_length_le (by simpa using hge), List.append_nil]

/-- Names are told apart by their bytes. -/
theorem nameBytes_inj {s t : String} : nameBytes s = nameBytes t ↔ s = t := by
  constructor
  · intro h
    rw [nameBytes, nameBytes, ByteArray.toList, ByteArray.toList, toList_loop, toList_loop] at h
    apply String.toByteArray_inj.mp
    apply ByteArray.ext
    exact Array.toList_inj.mp h
  · exact fun h => congrArg nameBytes h

theorem length_nameBytes (s : String) : (nameBytes s).length = s.utf8ByteSize := by
  rw [nameBytes, ByteArray.toList, toList_loop, List.reverse_nil, List.nil_append, List.drop_zero]
  rfl

/-- A name of a field or a variant: short and valid UTF-8. -/
structure IsName (text : Bytes) : Prop where
  length_le : text.length ≤ Decoder.maxNameLength
  valid : Utf8.isValid text = true

instance (text : Bytes) : Decidable (IsName text) :=
  decidable_of_iff (text.length ≤ Decoder.maxNameLength ∧ Utf8.isValid text = true)
    ⟨fun h => ⟨h.1, h.2⟩, fun h => ⟨h.length_le, h.valid⟩⟩

theorem IsName.length_lt {text : Bytes} (h : IsName text) : text.length < UInt64.size := by
  have hle := h.length_le
  change _ ≤ 4096 at hle
  change _ < 18446744073709551616
  omega

theorem IsName.reads_content {text : Bytes} (h : IsName text) :
    Reads (Decoder.nameContent (.text (some text.length))) text text := by
  rw [Decoder.nameContent, if_pos h.length_le]
  apply (reads_take text).bind_pure
  rw [if_pos h.valid]
  exact Reads.pure text

theorem IsName.reads_name {text : Bytes} (h : IsName text) :
    Reads Decoder.name (encodeText text) text :=
  Reads.bind (reads_untagged (by decide) h.length_lt rfl) h.reads_content

/-- A variant without content is a text. -/
theorem IsName.reads_variant {text : Bytes} (h : IsName text) :
    Reads Decoder.variant (encodeText text) text :=
  Reads.bind (reads_untagged (by decide) h.length_lt rfl) h.reads_content

/-- A variant with content is a map with one entry. -/
theorem IsName.reads_content_variant {α : Type} {text content : Bytes} (h : IsName text)
    {f : Bytes → Decoder α} {x : α} (hcontent : Reads (f text) content x) :
    Reads (Decoder.variant >>= f) (encodeMap [(text, content)]) x := by
  have hname : Reads Decoder.variant (encodeHead 5 1 ++ encodeText text) text :=
    Reads.bind (reads_untagged (by decide) (by decide) rfl) h.reads_name
  have hread := hname.bind hcontent
  rw [List.append_assoc] at hread
  rwa [encodeMap, List.flatMap_singleton, List.length_singleton]

end Strings

section Records

variable {α σ : Type}

theorem reads_once {item : Decoder α} {bytes : Bytes} {x : α} (h : Reads item bytes x)
    (set : α → σ) : Reads (Decoder.once none item set) bytes (set x) :=
  h.map set

theorem reads_nullable_none (item : Decoder α) :
    Reads (Decoder.nullable item) encodeNull none := by
  intro fuel rest _
  rfl

theorem reads_nullable_byteList {bytes : Bytes} (h : bytes.length < UInt64.size) :
    Reads (Decoder.nullable Decoder.byteList) (encodeByteList bytes) (some bytes) := by
  have hread := (reads_byteList h).map some
  intro fuel rest hfuel
  have hhead : readHead (encodeByteList bytes ++ rest) =
      some (.array (some bytes.length), (bytes.flatMap fun byte => encodeUnsigned byte.toNat) ++
        rest) := by
    rw [encodeByteList, List.append_assoc, readHead_encodeHead (by decide) h]
    rfl
  rw [← hread fuel rest hfuel]
  change ((readHead (encodeByteList bytes ++ rest)).map
    fun found => (found.1, encodeByteList bytes ++ rest)).bind _ = _
  rw [hhead]
  rfl

/-- The fields of a map in the order they were written, each put into the record by what
`field` knows of its name. -/
inductive FieldsRead (field : Bytes → σ → Option (Decoder σ)) :
    σ → List (Bytes × Bytes) → σ → Prop where
  | nil (s : σ) : FieldsRead field s [] s
  | cons {s t last : σ} {key value : Bytes} {d : Decoder σ} {entries : List (Bytes × Bytes)} :
      IsName key → field key s = some d → Reads d value t → FieldsRead field t entries last →
        FieldsRead field s ((key, value) :: entries) last

theorem FieldsRead.reads {field : Bytes → σ → Option (Decoder σ)} {s last : σ}
    {entries : List (Bytes × Bytes)} (h : FieldsRead field s entries last) (level : Nat) :
    Reads (Decoder.fields level field (some entries.length) s)
      (entries.flatMap fun (key, value) => encodeText key ++ value) last := by
  have hcount : entries.length =
      (entries.map fun (key, value) => encodeText key ++ value).length := (List.length_map _).symm
  rw [List.flatMap_def, hcount]
  apply ReadsAll.iterate
  clear hcount
  induction h with
  | nil s => exact .nil s
  | @cons s t last key value d entries hkey hfield hvalue hrest ih =>
      refine .cons (hkey.reads_name.bind ?_) ?_ ih
      · rw [hfield]
        exact hvalue
      · apply List.ne_nil_of_length_pos
        have hpos := length_encodeHead_pos 3 key.length
        simp only [encodeText, List.length_append]
        omega

end Records

end SealedEnvelope.Cbor
