import RustUma.Found.Run

/-!
# Files with names

Names lead to inodes and inodes hold bytes. A program that has created a file goes on writing to the
inode, wherever its name leads by then; two programs that create a file of one name write to one
inode.
-/

namespace RustUma.Found

variable {ν : Type*}

structure Files (ν : Type*) where
  inode : ν → Option ℕ
  data : ℕ → List UInt8
  next : ℕ
  fresh : ∀ name i, inode name = some i → i < next
  distinct : ∀ a b i, inode a = some i → inode b = some i → a = b

namespace Files

def empty : Files ν where
  inode := fun _ => none
  data := fun _ => []
  next := 0
  fresh := fun _ _ h => by cases h
  distinct := fun _ _ _ h => by cases h

def read (fs : Files ν) (name : ν) : Option (List UInt8) := (fs.inode name).map fs.data

def patch (content : List UInt8) (offset : ℕ) (bytes : List UInt8) : List UInt8 :=
  content.take offset ++ List.replicate (offset - content.length) 0 ++ bytes ++
    content.drop (offset + bytes.length)

def setData (fs : Files ν) (i : ℕ) (content : List UInt8) : Files ν :=
  { fs with data := Function.update fs.data i content }

def writeAt (fs : Files ν) (i offset : ℕ) (bytes : List UInt8) : Files ν :=
  fs.setData i (patch (fs.data i) offset bytes)

variable {fs : Files ν} {name other : ν} {i : ℕ}

lemma patch_length (content bytes : List UInt8) :
    patch content content.length bytes = content ++ bytes := by
  unfold patch
  simp

@[simp] lemma inode_setData (content : List UInt8) : (fs.setData i content).inode = fs.inode := rfl

lemma data_setData (content : List UInt8) : (fs.setData i content).data i = content :=
  Function.update_self _ _ _

lemma read_setData_of_inode_ne (hother : fs.inode other ≠ some i) (content : List UInt8) :
    (fs.setData i content).read other = fs.read other := by
  unfold read
  rw [inode_setData]
  cases hinode : fs.inode other with
  | none => rfl
  | some j =>
    have hji : j ≠ i := fun hji => hother (hji ▸ hinode)
    show some (Function.update fs.data i content j) = some (fs.data j)
    simp_all

lemma read_setData_of_ne (hname : fs.inode name = some i) (hne : other ≠ name)
    (content : List UInt8) : (fs.setData i content).read other = fs.read other := by
  refine read_setData_of_inode_ne ?_ content
  intro hother
  exact hne (fs.distinct other name i hother hname)

variable [DecidableEq ν]

def make (fs : Files ν) (name : ν) : Files ν where
  inode := Function.update fs.inode name (some fs.next)
  data := Function.update fs.data fs.next []
  next := fs.next + 1
  fresh := by
    intro a i ha
    rcases update_eq_some_iff.mp ha with ⟨-, rfl⟩ | ⟨-, ha⟩
    · exact Nat.lt_succ_self _
    · exact Nat.lt_succ_of_lt (fs.fresh a i ha)
  distinct := by
    intro a b i ha hb
    rcases update_eq_some_iff.mp ha with ⟨hane, rfl⟩ | ⟨-, ha⟩
    · rcases update_eq_some_iff.mp hb with ⟨hbne, -⟩ | ⟨-, hb⟩
      · exact hane.trans hbne.symm
      · exact absurd (fs.fresh b _ hb) (Nat.lt_irrefl _)
    · rcases update_eq_some_iff.mp hb with ⟨-, rfl⟩ | ⟨-, hb⟩
      · exact absurd (fs.fresh a _ ha) (Nat.lt_irrefl _)
      · exact fs.distinct a b i ha hb

def moved (inode : ν → Option ℕ) (source target : ν) (name : ν) : Option ℕ :=
  if name = target then inode source else if name = source then none else inode name

lemma moved_eq_some {inode : ν → Option ℕ} {source target name : ν} {i : ℕ}
    (h : moved inode source target name = some i) :
    (name = target ∧ inode source = some i) ∨
      (name ≠ target ∧ name ≠ source ∧ inode name = some i) := by
  unfold moved at h
  grind

def create (fs : Files ν) (name : ν) : Files ν × ℕ :=
  match fs.inode name with
  | some i => (fs.setData i [], i)
  | none => (fs.make name, fs.next)

def rename (fs : Files ν) (source target : ν) : Option (Files ν) :=
  if fs.inode source = none then none
  else some
    { fs with
      inode := moved fs.inode source target
      fresh := by
        intro a i ha
        rcases moved_eq_some ha with ⟨-, ha⟩ | ⟨-, -, ha⟩
        · exact fs.fresh source i ha
        · exact fs.fresh a i ha
      distinct := by
        intro a b i ha hb
        rcases moved_eq_some ha with ⟨hat, ha⟩ | ⟨-, has, ha⟩
        · rcases moved_eq_some hb with ⟨hbt, -⟩ | ⟨-, hbs, hb⟩
          · exact hat.trans hbt.symm
          · exact absurd (fs.distinct b source i hb ha) hbs
        · rcases moved_eq_some hb with ⟨-, hb⟩ | ⟨-, -, hb⟩
          · exact absurd (fs.distinct a source i ha hb) has
          · exact fs.distinct a b i ha hb }

/-! ## What the operations leave alone -/

lemma create_spec (fs : Files ν) (name : ν) :
    (fs.create name).1.inode name = some (fs.create name).2 ∧
      (fs.create name).1.data (fs.create name).2 = [] ∧
      ∀ other, other ≠ name → (fs.create name).1.read other = fs.read other := by
  unfold create
  split
  · next i hname => exact ⟨hname, data_setData [], fun other hne => read_setData_of_ne hname hne []⟩
  · next hname =>
    refine ⟨Function.update_self _ _ _, Function.update_self _ _ _, fun other hne => ?_⟩
    unfold read make
    dsimp only
    rw [Function.update_of_ne hne]
    cases hother : fs.inode other with
    | none => rfl
    | some j =>
      have hj : j ≠ fs.next := Nat.ne_of_lt (fs.fresh other j hother)
      simp_all

lemma inode_create_of_ne (hne : other ≠ name) :
    (fs.create name).1.inode other = fs.inode other := by
  unfold create
  split
  · rfl
  · exact Function.update_of_ne hne _ _

lemma exists_rename_of_inode {source : ν} (h : fs.inode source = some i) (target : ν) :
    ∃ fs', fs.rename source target = some fs' := by
  unfold rename
  simp_all

lemma inode_rename {fs' : Files ν} {source target : ν} (h : fs.rename source target = some fs') :
    fs'.inode target = fs.inode source := by
  unfold rename at h
  split_ifs at h
  cases h
  exact if_pos rfl

lemma read_rename {fs' : Files ν} {source target : ν} (h : fs.rename source target = some fs') :
    fs'.read target = fs.read source := by
  unfold rename at h
  split_ifs at h
  cases h
  unfold read
  show (moved fs.inode source target target).map fs.data = _
  unfold moved
  rw [if_pos rfl]

end Files

end RustUma.Found
