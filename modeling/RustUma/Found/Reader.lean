import RustUma.Found.Records

/-!
# Reading a binary format

A reader takes what it needs off the front of a byte string, or fails. `Reads r bytes a` says that
`r` takes exactly `bytes`, whatever follows, and returns `a`; a format is read back by composing
such facts along the reader.
-/

namespace RustUma.Found

variable {ε α β : Type}

abbrev Reader (ε α : Type) := StateT (List UInt8) (Except ε) α

def readExact (eof : ε) (n : ℕ) : Reader ε (List UInt8) := fun buf =>
  if n ≤ buf.length then .ok (buf.take n, buf.drop n) else .error eof

def readBe (eof : ε) (width : ℕ) : Reader ε ℕ := do
  return fromBeBytes (← readExact eof width)

def readMany (r : Reader ε α) : ℕ → Reader ε (List α)
  | 0 => return []
  | n + 1 => do
      let a ← r
      let rest ← readMany r n
      return a :: rest

def Reads (r : Reader ε α) (bytes : List UInt8) (a : α) : Prop :=
  ∀ rest, r (bytes ++ rest) = .ok (a, rest)

lemma Reads.pure (a : α) : Reads (ε := ε) (Pure.pure a) [] a := fun _ => rfl

variable {r : Reader ε α} {bytes : List UInt8}

lemma Reads.bind {f : α → Reader ε β} {bytes' : List UInt8} {a : α} {b : β} (h : Reads r bytes a)
    (h' : Reads (f a) bytes' b) : Reads (r >>= f) (bytes ++ bytes') b := by
  intro rest
  show (r (bytes ++ bytes' ++ rest)).bind (fun p => f p.1 p.2) = _
  rw [List.append_assoc, h]
  exact h' rest

lemma Reads.map {f : α → β} {a : α} (h : Reads r bytes a) :
    Reads (r >>= fun a => Pure.pure (f a)) bytes (f a) := by
  have hchain : Reads (r >>= fun a => Pure.pure (f a)) (bytes ++ []) (f a) :=
    h.bind (Reads.pure (f a))
  simp_all

lemma reads_exact (eof : ε) {n : ℕ} (h : bytes.length = n) :
    Reads (readExact eof n) bytes bytes := by
  intro rest
  subst h
  unfold readExact
  simp

lemma reads_be (eof : ε) {width v : ℕ} (h : v < 256 ^ width) :
    Reads (readBe eof width) (toBeBytes width v) v := by
  have hread := (reads_exact eof (length_toBeBytes width v)).map (f := fromBeBytes)
  rwa [fromBeBytes_toBeBytes width v h] at hread

lemma reads_many {encode : α → List UInt8} {items : List α} (h : ∀ a ∈ items, Reads r (encode a) a)
    :
    Reads (readMany r items.length) (items.flatMap encode) items := by
  induction items with
  | nil => exact Reads.pure []
  | cons a items ih =>
    refine (h a List.mem_cons_self).bind ?_
    exact (ih fun b hb => h b (List.mem_cons_of_mem _ hb)).map

end RustUma.Found
