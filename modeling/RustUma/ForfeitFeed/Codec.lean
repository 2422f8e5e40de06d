import Mathlib.Tactic.Ring
import RustUma.Found.Drain
import RustUma.Found.Fallible
import RustUma.Found.Text
import RustUma.Model.Protobuf

/-!
# The codec of the forfeit feed (`tools/forfeit-feed/forfeit_pb.py` `SCHEMA`, `encode`, `decode`)

A message is a dictionary of a bounded depth.
-/

namespace RustUma.ForfeitFeed

open RustUma.Found RustUma.Model

inductive MsgName where
  | forfeitFrame
  | hello
  | forfeitEvent
  | pmMarket
  deriving DecidableEq

inductive Kind where
  | u64
  | u32
  | enum
  | bool
  | str
  | bytes
  | msg (name : MsgName)
  deriving DecidableEq

structure FieldSpec where
  name : String
  number : ℕ
  kind : Kind
  repeated : Bool
  deriving DecidableEq

def one (name : String) (number : ℕ) (kind : Kind) : FieldSpec := ⟨name, number, kind, false⟩

def many (name : String) (number : ℕ) (kind : Kind) : FieldSpec := ⟨name, number, kind, true⟩

def schema : MsgName → List FieldSpec
  | .forfeitFrame => [one "hello" 1 (.msg .hello), one "event" 2 (.msg .forfeitEvent)]
  | .hello => [one "sent_at_us" 1 .u64, one "last_sequence" 2 .u64, one "events_total" 3 .u64]
  | .forfeitEvent =>
    [one "sequence" 1 .u64, one "backfill" 2 .bool, one "detect_at_us" 3 .u64,
      one "emitted_at_us" 4 .u64, one "sent_at_us" 5 .u64, one "game" 6 .str, one "league" 7 .str,
      one "match_name" 8 .str, one "pandascore_match_id" 9 .u64,
      one "forfeited_game_number" 10 .u32, one "team_a" 11 .str, one "team_b" 12 .str,
      one "winner" 13 .str, one "loser" 14 .str, one "game_length_s" 15 .u32,
      one "src_end_at_us" 16 .u64, one "match_begin_at_us" 17 .u64, one "match_status" 18 .str,
      one "lookup_status" 20 .enum, one "pm_event_slug" 21 .str, many "condition_ids" 22 .bytes,
      many "markets" 23 (.msg .pmMarket)]
  | .pmMarket =>
    [one "condition_id" 1 .bytes, one "slug" 2 .str, one "question" 3 .str,
      one "sports_market_type" 4 .str, one "game_number" 5 .u32, many "token_ids" 6 .bytes,
      many "outcomes" 7 .str, one "is_forfeited_market" 8 .bool, one "closed" 9 .bool,
      one "accepting_orders" 10 .bool]

/-! ## Values -/

inductive Item (δ : Type) where
  | int (n : ℕ)
  | bool (b : Bool)
  | str (s : List Char)
  | bytes (b : List UInt8)
  | msg (d : δ)

inductive Entry (δ : Type) where
  | one (item : Item δ)
  | many (items : List (Item δ))

def Dict : ℕ → Type
  | 0 => Empty
  | n + 1 => String → Option (Entry (Dict n))

variable {δ : Type}

inductive Item.Fits (fits : MsgName → δ → Prop) : Kind → Item δ → Prop
  | u64 {n : ℕ} (h : n < 2 ^ 64) : Fits fits .u64 (.int n)
  | u32 {n : ℕ} (h : n < 2 ^ 32) : Fits fits .u32 (.int n)
  | enum {n : ℕ} (h : n < 2 ^ 31) : Fits fits .enum (.int n)
  | bool (b : Bool) : Fits fits .bool (.bool b)
  | str (s : List Char) : Fits fits .str (.str s)
  | bytes (b : List UInt8) : Fits fits .bytes (.bytes b)
  | msg {m : MsgName} {d : δ} (h : fits m d) : Fits fits (.msg m) (.msg d)

def Entry.Fits (fits : MsgName → δ → Prop) (spec : FieldSpec) : Entry δ → Prop
  | .one item => spec.repeated = false ∧ item.Fits fits spec.kind
  | .many items => spec.repeated = true ∧ ∀ item ∈ items, item.Fits fits spec.kind

def Fits : (n : ℕ) → MsgName → Dict n → Prop
  | 0, _, _ => True
  | n + 1, name, v => ∀ spec ∈ schema name, ∀ entry, v spec.name = some entry →
      entry.Fits (Fits n) spec

/-! ## Encoding -/

def Item.toInt : Item δ → ℕ
  | .int n => n
  | .bool b => b.toNat
  | _ => 0

def encodeItem (encode : MsgName → δ → List UInt8) : Kind → Item δ → PbValue
  | .str, .str s => .delimited (utf8 s)
  | .bytes, .bytes b => .delimited b
  | .msg m, .msg d => .delimited (encode m d)
  | .str, _ | .bytes, _ | .msg _, _ => .delimited []
  | _, item => .varint (item.toInt % 2 ^ 64)

def skipped : Kind → PbValue → Bool
  | .msg _, _ => false
  | _, .varint n => decide (n = 0)
  | _, .delimited b => b.isEmpty
  | _, _ => false

def entryFields (encode : MsgName → δ → List UInt8) (spec : FieldSpec) :
    Option (Entry δ) → List PbField
  | none => []
  | some (.one item) =>
    let value := encodeItem encode spec.kind item
    if skipped spec.kind value then [] else [⟨spec.number, value⟩]
  | some (.many items) => items.map fun item => ⟨spec.number, encodeItem encode spec.kind item⟩

def encode : (n : ℕ) → MsgName → Dict n → List UInt8
  | 0, _, v => v.elim
  | n + 1, name, v =>
    encodeFields ((schema name).flatMap fun spec => entryFields (encode n) spec (v spec.name))

/-! ## Decoding -/

inductive DecodeError where
  | indexError
  | unsupportedWireType (wt : ℕ)
  | unicodeDecodeError
  | tooDeep

def readVarint : (shift n : ℕ) → List UInt8 → Except DecodeError (ℕ × List UInt8)
  | _, _, [] => .error .indexError
  | shift, n, b :: buf =>
    let n := n ||| (b &&& 0x7f).toNat <<< shift
    if b &&& 0x80 = 0 then .ok (n, buf) else readVarint (shift + 7) n buf

inductive Raw where
  | int (n : ℕ)
  | bytes (b : List UInt8)

def readValue (wt : ℕ) (buf : List UInt8) : Except DecodeError (Raw × List UInt8) :=
  match wt with
  | 0 => (readVarint 0 0 buf).map fun r => (.int r.1, r.2)
  | 2 => (readVarint 0 0 buf).map fun r => (.bytes (r.2.take r.1), r.2.drop r.1)
  | 1 => .ok (.bytes (buf.take 8), buf.drop 8)
  | 5 => .ok (.bytes (buf.take 4), buf.drop 4)
  | _ => .error (.unsupportedWireType wt)

def Raw.toBytes : Raw → List UInt8
  | .int n => List.replicate n 0
  | .bytes b => b

def Raw.toBool : Raw → Bool
  | .int n => decide (n ≠ 0)
  | .bytes b => !b.isEmpty

def convert (decode : MsgName → List UInt8 → Except DecodeError δ) (v : Raw) :
    Kind → Except DecodeError (Item δ)
  | .bool => .ok (.bool v.toBool)
  | .str =>
    match fromUtf8 v.toBytes with
    | some s => .ok (.str s)
    | none => .error .unicodeDecodeError
  | .bytes => .ok (.bytes v.toBytes)
  | .msg m => (decode m v.toBytes).map .msg
  | _ =>
    match v with
    | .int n => .ok (.int n)
    | .bytes b => .ok (.bytes b)

def Entry.append (item : Item δ) : Option (Entry δ) → Entry δ
  | some (.many items) => .many (items ++ [item])
  | _ => .many [item]

def store (decode : MsgName → List UInt8 → Except DecodeError δ) (name : MsgName)
    (out : String → Option (Entry δ)) (no : ℕ) (v : Raw) :
    Except DecodeError (String → Option (Entry δ)) :=
  match (schema name).find? fun spec => decide (spec.number = no) with
  | none => .ok out
  | some spec =>
    (convert decode v spec.kind).map fun item => Function.update out spec.name
      (some (if spec.repeated then Entry.append item (out spec.name) else .one item))

def decodeField (decode : MsgName → List UInt8 → Except DecodeError δ) (name : MsgName)
    (out : String → Option (Entry δ)) (buf : List UInt8) :
    Except DecodeError ((String → Option (Entry δ)) × List UInt8) := do
  let (k, buf) ← readVarint 0 0 buf
  let (v, buf) ← readValue (k % 8) buf
  return (← store decode name out (k / 8) v, buf)

def absent (spec : FieldSpec) : Option (Entry δ) := if spec.repeated then some (.many []) else none

def decode : (n : ℕ) → MsgName → List UInt8 → Except DecodeError (Dict n)
  | 0, _, _ => .error .tooDeep
  | n + 1, name, buf =>
    drain (decodeField (decode n) name)
      (fun key => ((schema name).find? fun spec => decide (spec.name = key)).bind absent) buf

/-! ## What comes back -/

def Item.isDefault : Item δ → Bool
  | .int n => decide (n = 0)
  | .bool b => !b
  | .str s => s.isEmpty
  | .bytes b => b.isEmpty
  | .msg _ => false

def Item.normal (normal : MsgName → δ → δ) : Kind → Item δ → Item δ
  | .msg m, .msg d => .msg (normal m d)
  | _, item => item

def normalEntry (normal : MsgName → δ → δ) (spec : FieldSpec) :
    Option (Entry δ) → Option (Entry δ)
  | none => absent spec
  | some (.one item) =>
    if item.isDefault then none else some (.one (item.normal normal spec.kind))
  | some (.many items) => some (.many (items.map (Item.normal normal spec.kind)))

def normal : (n : ℕ) → MsgName → Dict n → Dict n
  | 0, _, v => v
  | n + 1, name, v => fun key => ((schema name).find? fun spec => decide (spec.name = key)).bind
      fun spec => normalEntry (normal n) spec (v key)

inductive Padded : MsgName → List UInt8 → List UInt8 → Prop
  | refl (name : MsgName) (buf : List UInt8) : Padded name buf buf
  | insert {name : MsgName} {f : PbField} {text buf buf' : List UInt8} (hf : f.Written Varint text)
      (hunknown : ∀ spec ∈ schema name, spec.number ≠ f.number) (h : Padded name buf buf') :
      Padded name buf (text ++ buf')
  | keep {name : MsgName} {f : PbField} {text buf buf' : List UInt8} (hf : f.Written Varint text)
      (h : Padded name buf buf') : Padded name (text ++ buf) (text ++ buf')
  | nested {name m : MsgName} {spec : FieldSpec} {key len len' inner inner' buf buf' : List UInt8}
      (hspec : spec ∈ schema name) (hkind : spec.kind = .msg m)
      (hkey : Varint key (spec.number * 8 + 2)) (hlen : Varint len inner.length)
      (hlen' : Varint len' inner'.length) (hinner : Padded m inner inner')
      (h : Padded name buf buf') :
      Padded name (key ++ (len ++ inner) ++ buf) (key ++ (len' ++ inner') ++ buf')

/-! ## Reading -/

lemma readVarint_written {bytes : List UInt8} {m : ℕ} (h : Varint bytes m) {shift n : ℕ}
    (hn : n < 2 ^ shift) (rest : List UInt8) :
    readVarint shift n (bytes ++ rest) = .ok (n + m * 2 ^ shift, rest) := by
  induction h generalizing shift n with
  | last hlast =>
    rw [List.singleton_append, readVarint, toNat_and_low, or_shiftLeft hn, Nat.mod_eq_of_lt hlast]
    exact if_pos ((and_eighth_eq_zero_iff _).mpr hlast)
  | @more b bytes m hmore hrest ih =>
    have hdigit : n + b.toNat % 128 * 2 ^ shift < 2 ^ (shift + 7) := by
      have := Nat.mul_le_mul_right (2 ^ shift) (Nat.mod_lt b.toNat (y := 128) (by decide))
      grind
    rw [List.cons_append, readVarint, toNat_and_low, or_shiftLeft hn,
      if_neg (mt (and_eighth_eq_zero_iff _).mp hmore.not_gt), ih hdigit]
    congr 2
    ring

lemma readVarint_length {shift n v : ℕ} {buf rest : List UInt8}
    (h : readVarint shift n buf = .ok (v, rest)) : rest.length < buf.length := by
  induction buf generalizing shift n with
  | nil => cases h
  | cons b buf ih =>
    rw [readVarint] at h
    grind

def raw : PbValue → Raw
  | .varint n => .int n
  | .fixed64 bytes => .bytes bytes.1
  | .delimited bytes => .bytes bytes
  | .fixed32 bytes => .bytes bytes.1

lemma readValue_written {value : PbValue} {text : List UInt8} (h : value.Written Varint text)
    (rest : List UInt8) : readValue value.wire (text ++ rest) = .ok (raw value, rest) := by
  cases value with
  | varint n =>
    show (readVarint 0 0 (text ++ rest)).map _ = _
    rw [readVarint_written h Nat.one_pos]
    simp [Except.map, raw]
  | fixed64 bytes | fixed32 bytes =>
    obtain ⟨bytes, hlen⟩ := bytes
    cases h
    show Except.ok (Raw.bytes _, _) = _
    rw [List.take_left' hlen, List.drop_left' hlen]
    rfl
  | delimited bytes =>
    obtain ⟨len, hlen, rfl⟩ := h
    show (readVarint 0 0 (len ++ bytes ++ rest)).map _ = _
    rw [List.append_assoc, readVarint_written hlen Nat.one_pos]
    simp [Except.map, raw]

section Loop

variable {dec : MsgName → List UInt8 → Except DecodeError δ} {name : MsgName}
  {out out' : String → Option (Entry δ)}

lemma decodeField_written {f : PbField} {text : List UInt8} (hf : f.Written Varint text)
    (rest : List UInt8) : decodeField dec name out (text ++ rest) =
      (store dec name out f.number (raw f.value)).map (·, rest) := by
  obtain ⟨key, value, hkey, hvalue, rfl⟩ := hf
  have hwire := wire_lt f.value
  unfold decodeField
  rw [List.append_assoc, readVarint_written hkey Nat.one_pos]
  dsimp only [bind, Except.bind]
  rw [show (0 + (f.number * 8 + f.value.wire) * 2 ^ 0) % 8 = f.value.wire by omega,
    show (0 + (f.number * 8 + f.value.wire) * 2 ^ 0) / 8 = f.number by omega,
    readValue_written hvalue]
  rfl

lemma readValue_length {wt : ℕ} {v : Raw} {buf rest : List UInt8}
    (h : readValue wt buf = .ok (v, rest)) : rest.length ≤ buf.length := by
  unfold readValue at h
  split at h
  · obtain ⟨r, hr, heq⟩ := exceptMap_eq_ok h
    cases heq
    exact (readVarint_length hr).le
  · obtain ⟨r, hr, heq⟩ := exceptMap_eq_ok h
    cases heq
    exact (List.drop_sublist _ _).length_le.trans (readVarint_length hr).le
  · grind
  · grind
  · cases h

lemma decodeField_consumes : Consumes (decodeField dec name) := by
  intro out b buf out' rest h
  unfold decodeField at h
  obtain ⟨⟨k, buf₁⟩, hkey, h⟩ := bind_eq_ok_iff.mp h
  obtain ⟨⟨v, buf₂⟩, hvalue, h⟩ := bind_eq_ok_iff.mp h
  obtain ⟨next, -, h⟩ := bind_eq_ok_iff.mp h
  cases h
  exact (readValue_length hvalue).trans (Nat.le_of_lt_succ (readVarint_length hkey))

lemma drain_field {f : PbField} {text : List UInt8} (hf : f.Written Varint text)
    (rest : List UInt8) : drain (decodeField dec name) out (text ++ rest) =
      (store dec name out f.number (raw f.value)).bind
        fun out => drain (decodeField dec name) out rest := by
  have hne : text ++ rest ≠ [] := by
    obtain ⟨key, value, hkey, -, rfl⟩ := hf
    simp [hkey.ne_nil]
  have hread : decodeField dec name out (text ++ rest) = _ := decodeField_written hf rest
  obtain ⟨b, buf, hbuf⟩ := List.exists_cons_of_ne_nil hne
  rw [hbuf] at hread ⊢
  rw [drain_cons decodeField_consumes, hread]
  cases store dec name out f.number (raw f.value) <;> rfl

lemma store_unknown {no : ℕ} (h : ∀ spec ∈ schema name, spec.number ≠ no) (v : Raw) :
    store dec name out no v = .ok out := by
  unfold store
  grind

lemma store_known {spec : FieldSpec} (hspec : spec ∈ schema name) (v : Raw) :
    store dec name out spec.number v = (convert dec v spec.kind).map fun item =>
      Function.update out spec.name
        (some (if spec.repeated then Entry.append item (out spec.name) else .one item)) := by
  have hfind : ∀ name, ∀ spec ∈ schema name,
      (schema name).find? (fun s => decide (s.number = spec.number)) = some spec := by
    rintro ⟨⟩ <;> decide
  unfold store
  grind

end Loop

lemma decode_padded {name : MsgName} {buf buf' : List UInt8} (h : Padded name buf buf') (n : ℕ) :
    decode n name buf = decode n name buf' := by
  suffices hdrain : ∀ n out, drain (decodeField (decode n) name) out buf =
      drain (decodeField (decode n) name) out buf' by
    cases n with
    | zero => rfl
    | succ n => exact hdrain n _
  induction h with
  | refl => exact fun _ _ => rfl
  | insert hf hunknown _ ih =>
    intro n out
    rw [drain_field hf, store_unknown hunknown]
    exact ih n out
  | keep hf _ ih =>
    intro n out
    rw [drain_field hf, drain_field hf]
    simp_all
  | @nested name m spec key len len' inner inner' buf buf' hspec hkind hkey hlen hlen' _ _ ihinner
      ih =>
    intro n out
    have hinner : decode n m inner = decode n m inner' := by
      cases n with
      | zero => rfl
      | succ n => exact ihinner n _
    have hf : (⟨spec.number, .delimited inner⟩ : PbField).Written Varint (key ++ (len ++ inner)) :=
      ⟨key, _, hkey, ⟨len, hlen, rfl⟩, rfl⟩
    have hf' : (⟨spec.number, .delimited inner'⟩ : PbField).Written Varint (key ++ (len' ++ inner')) :=
      ⟨key, _, hkey, ⟨len', hlen', rfl⟩, rfl⟩
    have hsame : store (decode n) name out spec.number (.bytes inner) =
        store (decode n) name out spec.number (.bytes inner') := by
      rw [store_known hspec, store_known hspec, hkind]
      simp only [convert, Raw.toBytes, hinner]
    rw [drain_field hf, drain_field hf']
    show (store _ _ _ _ (.bytes inner)).bind _ = (store _ _ _ _ (.bytes inner')).bind _
    simp_all

/-! ## Writing and reading back -/

section RoundTrip

variable {enc : MsgName → δ → List UInt8} {dec : MsgName → List UInt8 → Except DecodeError δ}
  {norm : MsgName → δ → δ} {fits : MsgName → δ → Prop}

lemma isEmpty_utf8 (s : List Char) : (utf8 s).isEmpty = s.isEmpty := by
  rw [Bool.eq_iff_iff, List.isEmpty_iff, List.isEmpty_iff]
  constructor
  · intro h
    have hs := fromUtf8_utf8 s
    rw [h, ← show utf8 [] = [] from rfl, fromUtf8_utf8] at hs
    simp_all
  · rintro rfl
    rfl

lemma skipped_encodeItem {kind : Kind} {item : Item δ} (hfits : item.Fits fits kind) :
    skipped kind (encodeItem enc kind item) = item.isDefault := by
  cases hfits with
  | u64 h | u32 h | enum h =>
    simp only [skipped, encodeItem, Item.toInt, Item.isDefault]
    grind
  | bool b => cases b <;> rfl
  | str s => exact isEmpty_utf8 s
  | bytes b => rfl
  | msg h => rfl

lemma number_lt {kind : Kind} {item : Item δ} {n : ℕ} (h : encodeItem enc kind item = .varint n) :
    n < 2 ^ 64 := by
  unfold encodeItem at h
  grind

variable (hround : ∀ m d, fits m d → (enc m d).length < 2 ^ 64 → dec m (enc m d) = .ok (norm m d))

include hround

lemma convert_encodeItem {kind : Kind} {item : Item δ} (hfits : item.Fits fits kind)
    (hlen : (encodeItem enc kind item).Fits) :
    convert dec (raw (encodeItem enc kind item)) kind = .ok (item.normal norm kind) := by
  cases hfits with
  | u64 h | u32 h | enum h =>
    simp only [convert, raw, encodeItem, Item.toInt, Item.normal]
    rw [Nat.mod_eq_of_lt (by omega)]
  | bool b => cases b <;> rfl
  | str s => simp only [convert, raw, encodeItem, Raw.toBytes, fromUtf8_utf8, Item.normal]
  | bytes b => rfl
  | @msg m d h =>
    show (dec m (enc m d)).map _ = _
    rw [hround m d h hlen]
    rfl

lemma drain_encodeItem {name : MsgName} {spec : FieldSpec} (hspec : spec ∈ schema name)
    {item : Item δ} (hfits : item.Fits fits spec.kind)
    (hlen : (⟨spec.number, encodeItem enc spec.kind item⟩ : PbField).Fits)
    (out : String → Option (Entry δ)) :
    Drains (decodeField dec name) out
      (⟨spec.number, encodeItem enc spec.kind item⟩ : PbField).encode
      (Function.update out spec.name (some
        (if spec.repeated then Entry.append (item.normal norm spec.kind) (out spec.name)
        else .one (item.normal norm spec.kind)))) := by
  intro rest
  rw [drain_field (written_encode (fun n hn => (varint_varintDigits (d := 9) (by omega)).1) hlen),
    store_known hspec, convert_encodeItem hround hfits hlen.2]
  rfl

lemma drains_items {name : MsgName} {spec : FieldSpec} (hspec : spec ∈ schema name)
    (hrepeated : spec.repeated = true) {items : List (Item δ)}
    (hfits : ∀ item ∈ items, item.Fits fits spec.kind)
    (hlen : ∀ f ∈ entryFields enc spec (some (.many items)), f.Fits)
    {out : String → Option (Entry δ)} {before : List (Item δ)}
    (hout : out spec.name = some (.many before)) :
    Drains (decodeField dec name) out (encodeFields (entryFields enc spec (some (.many items))))
      (Function.update out spec.name
        (some (.many (before ++ items.map (Item.normal norm spec.kind))))) := by
  induction items generalizing out before with
  | nil =>
    rw [List.map_nil, List.append_nil, ← hout, Function.update_eq_self]
    exact drains_nil out
  | cons item items ih =>
    rw [List.forall_mem_cons] at hfits
    simp only [entryFields, List.map_cons, List.forall_mem_cons] at hlen
    have hfirst := drain_encodeItem hround hspec hfits.1 hlen.1 out
    rw [if_pos hrepeated, hout] at hfirst
    have hrest := ih hfits.2 hlen.2 (Function.update_self spec.name
      (some (.many (before ++ [item.normal norm spec.kind]))) out)
    rw [Function.update_idem, List.append_assoc] at hrest
    exact hfirst.append hrest

lemma drains_entry {name : MsgName} {spec : FieldSpec} (hspec : spec ∈ schema name)
    {entry : Option (Entry δ)} (hfits : ∀ e, entry = some e → e.Fits fits spec)
    (hlen : ∀ f ∈ entryFields enc spec entry, f.Fits) {out : String → Option (Entry δ)}
    (hout : out spec.name = absent spec) :
    Drains (decodeField dec name) out (encodeFields (entryFields enc spec entry))
      (Function.update out spec.name (normalEntry norm spec entry)) := by
  cases entry with
  | none =>
    rw [normalEntry, ← hout, Function.update_eq_self]
    exact drains_nil out
  | some e =>
    cases e with
    | one item =>
      obtain ⟨hone, hitem⟩ := hfits _ rfl
      rw [absent, if_neg (by simp [hone])] at hout
      dsimp only [entryFields, normalEntry] at hlen ⊢
      rw [skipped_encodeItem hitem] at hlen ⊢
      split_ifs at hlen ⊢
      · rw [← hout, Function.update_eq_self]
        exact drains_nil out
      · have hback := drain_encodeItem hround hspec hitem (hlen _ List.mem_cons_self) out
        rw [if_neg (by simp [hone])] at hback
        simpa [encodeFields] using hback
    | many items =>
      obtain ⟨hmany, hitems⟩ := hfits _ rfl
      rw [absent, hmany] at hout
      simpa [normalEntry] using drains_items hround hspec hmany hitems hlen hout

lemma drains_schema {name : MsgName} {specs : List FieldSpec} (hspecs : specs ⊆ schema name)
    (hnodup : (specs.map FieldSpec.name).Nodup) {v : String → Option (Entry δ)}
    (hfits : ∀ spec ∈ specs, ∀ e, v spec.name = some e → e.Fits fits spec)
    (hlen : ∀ f ∈ specs.flatMap (fun spec => entryFields enc spec (v spec.name)), f.Fits)
    {out : String → Option (Entry δ)} (hout : ∀ spec ∈ specs, out spec.name = absent spec) :
    Drains (decodeField dec name) out
      (encodeFields (specs.flatMap fun spec => entryFields enc spec (v spec.name)))
      (specs.foldl (fun out spec =>
        Function.update out spec.name (normalEntry norm spec (v spec.name))) out) := by
  induction specs generalizing out with
  | nil => exact drains_nil out
  | cons spec specs ih =>
    rw [List.cons_subset] at hspecs
    rw [List.map_cons, List.nodup_cons] at hnodup
    rw [List.forall_mem_cons] at hfits hout
    rw [List.flatMap_cons, List.forall_mem_append] at hlen
    rw [List.flatMap_cons, encodeFields_append]
    refine (drains_entry hround hspecs.1 hfits.1 hlen.1 hout.1).append
      (ih hspecs.2 hnodup.2 hfits.2 hlen.2 fun other hother => ?_)
    simp_all

end RoundTrip

lemma foldl_update {specs : List FieldSpec} (hnodup : (specs.map FieldSpec.name).Nodup)
    (g : FieldSpec → Option (Entry δ)) (out : String → Option (Entry δ)) (key : String) :
    specs.foldl (fun out spec => Function.update out spec.name (g spec)) out key =
      ((specs.find? fun spec => decide (spec.name = key)).map g).getD (out key) := by
  induction specs generalizing out with
  | nil => rfl
  | cons spec specs ih =>
    rw [List.map_cons, List.nodup_cons] at hnodup
    rw [List.foldl_cons, ih hnodup.2]
    by_cases hkey : spec.name = key
    · have hnone : specs.find? (fun other => decide (other.name = key)) = none := by
        simp_all
      grind
    grind

lemma mem_entryFields {enc : MsgName → δ → List UInt8} {spec : FieldSpec}
    {entry : Option (Entry δ)} {f : PbField} (hf : f ∈ entryFields enc spec entry) :
    ∃ item, f = ⟨spec.number, encodeItem enc spec.kind item⟩ := by
  unfold entryFields at hf
  grind

lemma decode_encode (n : ℕ) (name : MsgName) (v : Dict n) (hfits : Fits n name v)
    (hlen : (encode n name v).length < 2 ^ 64) :
    decode n name (encode n name v) = .ok (normal n name v) := by
  induction n generalizing name with
  | zero => exact v.elim
  | succ n ih =>
    have hnodup : ((schema name).map FieldSpec.name).Nodup := by
      cases name <;> decide
    have hnumber : ∀ spec ∈ schema name, spec.number < 2 ^ 29 := by
      cases name <;> decide
    have hfind : ∀ spec ∈ schema name,
        (schema name).find? (fun s => decide (s.name = spec.name)) = some spec := by
      cases name <;> decide
    have hfields : NumbersFit
        ((schema name).flatMap fun spec => entryFields (encode n) spec (v spec.name)) := by
      intro f hf
      obtain ⟨spec, hspec, hf⟩ := List.mem_flatMap.mp hf
      obtain ⟨item, rfl⟩ := mem_entryFields hf
      exact ⟨hnumber spec hspec, fun _ => number_lt⟩
    refine (drains_schema (fun m d hd => ih m d hd) (List.Subset.refl _) hnodup hfits
      (hfields.fits hlen) fun spec hspec => ?_).eq_ok.trans (congrArg _ (funext fun key => ?_))
    · simp_all
    · rw [foldl_update hnodup, normal]
      dsimp only
      cases hkey : (schema name).find? fun spec => decide (spec.name = key) with
      | none => rfl
      | some spec =>
        grind

/-- **The codec round-trips.** A message comes back without its singular defaults and with all its
lists, if its bytes can be counted in 64 bits; unknown fields change nothing. -/
theorem forfeit_codec_round_trips :
    (∀ (n : ℕ) (name : MsgName) (v : Dict n), Fits n name v →
      (encode n name v).length < 2 ^ 64 →
      decode n name (encode n name v) = .ok (normal n name v)) ∧
    ∀ (n : ℕ) (name : MsgName) (buf buf' : List UInt8), Padded name buf buf' →
      decode n name buf = decode n name buf' :=
  ⟨decode_encode, fun n _ _ _ h => decode_padded h n⟩

end RustUma.ForfeitFeed
