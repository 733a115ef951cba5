import EspLog.Support.ByteMemory

/-! The EEPROM emulation: a RAM buffer over one flash sector. Accesses outside the
buffer are dropped without an error, so the results below all ask for an open buffer. -/

namespace EspLog.Eeprom
open ByteMemory

/-- `size` is zero exactly while there is no buffer, and `data` then means nothing.
`spiOk` says whether erasing and writing the flash sector succeed. -/
structure EEPROMClass where
  size : Nat
  data : Memory
  dirty : Bool
  flash : Memory
  spiOk : Bool

def sectorSize : Nat := 4096

namespace EEPROMClass
variable (e : EEPROMClass)

def begin (size : Nat) : EEPROMClass :=
  if size = 0 then e
  else { e with size := (min size sectorSize + 3) / 4 * 4, data := e.flash }

def read (address : Nat) : UInt8 :=
  if address ≥ e.size then 0 else e.data address

/-- Only a write that changes the byte marks the buffer. -/
def write (address : Nat) (value : UInt8) : EEPROMClass :=
  if address ≥ e.size then e
  else if e.data address ≠ value then { e with data := Function.update e.data address value, dirty := true }
  else e

/-- The flag is cleared only when the driver erased and wrote the sector. -/
def commit : EEPROMClass :=
  if e.size = 0 then e
  else if e.dirty = false then e
  else if e.spiOk = false then e
  else { e with flash := fun i => if i < e.size then e.data i else 0xFF, dirty := false }

/-- `EEPROM.end()`. -/
def close : EEPROMClass :=
  if e.size = 0 then e else { e.commit with size := 0 }

/-- `get` of a four-byte variable that holds `old`: out of range it keeps what it held. -/
def get (address : Nat) (old : UInt32) : UInt32 :=
  if address + 4 > e.size then old else read32 e.data address

def put (address : Nat) (word : UInt32) : EEPROMClass :=
  if address + 4 > e.size then e else { e with data := write32 e.data address word, dirty := true }

end EEPROMClass

section Opened
variable {e : EEPROMClass}

/-- The sketch asks for 1520 bytes. -/
def opened : Nat := 1520

/-- An open buffer over a working flash, with nothing unmarked that the flash lacks. -/
structure Open (e : EEPROMClass) : Prop where
  size : e.size = opened
  driver : e.spiOk = true
  clean : e.dirty = false → ∀ i, i < opened → e.flash i = e.data i

/-- Open, and committed. -/
structure Settled (e : EEPROMClass) : Prop extends Open e where
  same : ∀ i, i < opened → e.flash i = e.data i

theorem begin_settled (driver : e.spiOk = true) : Settled (e.begin opened) where
  size := rfl
  driver := driver
  clean _ _ _ := rfl
  same _ _ := rfl

@[simp] theorem begin_data : (e.begin opened).data = e.flash := rfl

@[simp] theorem begin_size : (e.begin opened).size = opened := rfl

@[simp] theorem commit_size : e.commit.size = e.size := by
  unfold EEPROMClass.commit
  repeat' split
  all_goals rfl

@[simp] theorem commit_data : e.commit.data = e.data := by
  unfold EEPROMClass.commit
  repeat' split
  all_goals rfl

@[simp] theorem commit_spiOk : e.commit.spiOk = e.spiOk := by
  unfold EEPROMClass.commit
  repeat' split
  all_goals rfl

theorem Open.commit (isOpen : Open e) : Settled e.commit := by
  have same : ∀ i, i < opened → e.commit.flash i = e.commit.data i := by
    intro i inside
    rw [commit_data]
    unfold EEPROMClass.commit
    have nonempty : e.size ≠ 0 := by rw [isOpen.size]; decide
    rw [if_neg nonempty]
    by_cases clean : e.dirty = false
    · rw [if_pos clean]
      exact isOpen.clean clean i inside
    · have works : ¬e.spiOk = false := by rw [isOpen.driver]; decide
      have within : i < e.size := isOpen.size ▸ inside
      simp only [if_neg clean, if_neg works, if_pos within]
  exact ⟨⟨by rw [commit_size, isOpen.size], by rw [commit_spiOk, isOpen.driver], fun _ => same⟩, same⟩

theorem Open.put (isOpen : Open e) (address : Nat) (word : UInt32) : Open (e.put address word) := by
  unfold EEPROMClass.put
  split
  · exact isOpen
  · exact ⟨isOpen.size, isOpen.driver, fun clean => absurd clean (by simp)⟩

theorem Open.write (isOpen : Open e) (address : Nat) (value : UInt8) : Open (e.write address value) := by
  unfold EEPROMClass.write
  split
  · exact isOpen
  · split
    · exact ⟨isOpen.size, isOpen.driver, fun clean => absurd clean (by simp)⟩
    · exact isOpen

theorem Open.put_data (isOpen : Open e) (address : Nat) (word : UInt32) (fits : address + 4 ≤ opened) :
    (e.put address word).data = write32 e.data address word := by
  have inside : ¬address + 4 > e.size := by rw [isOpen.size]; omega
  simp only [EEPROMClass.put, if_neg inside]

theorem Open.get (isOpen : Open e) (address : Nat) (old : UInt32) (fits : address + 4 ≤ opened) :
    e.get address old = read32 e.data address := by
  have inside : ¬address + 4 > e.size := by rw [isOpen.size]; omega
  simp only [EEPROMClass.get, if_neg inside]

theorem Open.read (isOpen : Open e) (address : Nat) (fits : address < opened) :
    e.read address = e.data address := by
  have inside : ¬address ≥ e.size := by rw [isOpen.size]; omega
  simp only [EEPROMClass.read, if_neg inside]

theorem Settled.read32_flash (settled : Settled e) (address : Nat) (fits : address + 4 ≤ opened) :
    read32 e.flash address = read32 e.data address :=
  read32_congr _ _ _ fun i bound => settled.same (address + i) (by omega)

end Opened

section Writes
variable (e : EEPROMClass) (address : Nat) (value : UInt8)

@[simp] theorem write_size : (e.write address value).size = e.size := by
  unfold EEPROMClass.write
  repeat' split
  all_goals rfl

theorem write_apply (i : Nat) : (e.write address value).data i = if address < e.size ∧ i = address then value
    else e.data i := by
  unfold EEPROMClass.write
  by_cases inside : address ≥ e.size
  · have outside : ¬(address < e.size ∧ i = address) := by omega
    rw [if_pos inside, if_neg outside]
  · rw [if_neg inside]
    by_cases here : i = address
    · have present : address < e.size ∧ i = address := by omega
      rw [if_pos present, here]
      split
      · exact Function.update_self _ _ _
      · exact not_not.mp ‹_›
    · have other : ¬(address < e.size ∧ i = address) := fun both => here both.2
      rw [if_neg other]
      split
      · exact Function.update_of_ne here _ _
      · rfl

end Writes

section Closed
variable {e : EEPROMClass} (closed : e.size = 0)
include closed

theorem put_closed (address : Nat) (word : UInt32) : e.put address word = e := by
  have outside : address + 4 > e.size := by omega
  simp only [EEPROMClass.put, if_pos outside]

theorem write_closed (address : Nat) (value : UInt8) : e.write address value = e := by
  have outside : address ≥ e.size := by omega
  simp only [EEPROMClass.write, if_pos outside]

theorem get_closed (address : Nat) (old : UInt32) : e.get address old = old := by
  have outside : address + 4 > e.size := by omega
  simp only [EEPROMClass.get, if_pos outside]

theorem commit_closed : e.commit = e := by
  simp only [EEPROMClass.commit, if_pos closed]

theorem close_closed : e.close = e := by
  simp only [EEPROMClass.close, if_pos closed]

end Closed
end EspLog.Eeprom
