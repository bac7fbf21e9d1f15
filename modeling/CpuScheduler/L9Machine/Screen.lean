import CpuScheduler.Core.Paper
import CpuScheduler.L1Memory.MemPrimitives
import CpuScheduler.L4Task.Syscalls

/-!
# The screen

`screen.cpp`: the text is in the video memory, two bytes a character, and the
place of the next one is kept in two registers of the controller, behind an
index port and a data port. `printChar` scrolls when the last line is finished.

A message is the list of its characters before the terminator. The offsets are
never negative, and one call ends before the next begins.

What the screen is for is the end of a text typed line by line (`Paper`): the
last 25 lines, the cursor behind the last character (`Shows`). The model of the
system calls keeps the characters that the tasks print; they are shown so.
-/
namespace CpuScheduler.L9

open L1 L1.MemPrimitives

def VIDEO_BUFFER_ADDRESS : UInt32 := 0xb8000

def REG_SCREEN_CTRL : UInt16 := 0x3d4

def REG_SCREEN_DATA : UInt16 := 0x3d5

def MAX_ROWS : Nat := 25

def MAX_COLS : Nat := 80

/-- The memory, and the registers of the controller with the selected one. -/
structure Vga where
  mem : Memory
  selected : UInt8
  registers : UInt8 → UInt8

namespace Vga

def portByteOut (v : Vga) (port : UInt16) (data : UInt8) : Vga :=
  if port = REG_SCREEN_CTRL then { v with selected := data }
  else if port = REG_SCREEN_DATA then { v with registers := Function.update v.registers v.selected data }
  else v

def portByteIn (v : Vga) (port : UInt16) : UInt8 :=
  if port = REG_SCREEN_CTRL then v.selected else v.registers v.selected

/-- `videoBuffer[i] = c` -/
def storeVideo (v : Vga) (i : Nat) (c : UInt8) : Vga :=
  { v with mem := Function.update v.mem (VIDEO_BUFFER_ADDRESS + UInt32.ofNat i) c }

/-- mirrors screen.cpp:32-38 -/
def getCursorOffset (v : Vga) : Nat × Vga :=
  let v := v.portByteOut REG_SCREEN_CTRL 14
  let offset := (v.portByteIn REG_SCREEN_DATA).toNat <<< 8
  let v := v.portByteOut REG_SCREEN_CTRL 15
  let offset := offset + (v.portByteIn REG_SCREEN_DATA).toNat
  (2 * offset, v)

/-- mirrors screen.cpp:40-46 -/
def setCursorOffset (v : Vga) (offset : Nat) : Vga :=
  let offset := offset / 2
  let v := v.portByteOut REG_SCREEN_CTRL 14
  let v := v.portByteOut REG_SCREEN_DATA (UInt8.ofNat (offset >>> 8))
  let v := v.portByteOut REG_SCREEN_CTRL 15
  v.portByteOut REG_SCREEN_DATA (UInt8.ofNat (offset &&& 0xff))

/-- All lines but the first, and an empty one. mirrors screen.cpp:59-61 -/
def scroll (v : Vga) : Vga :=
  let mem := (memCopy v.mem (UInt32.ofNat (2 * MAX_COLS) + VIDEO_BUFFER_ADDRESS) VIDEO_BUFFER_ADDRESS
    (UInt32.ofNat (2 * (MAX_ROWS - 1) * MAX_COLS))).val
  { v with mem := (memClear mem (UInt32.ofNat (2 * (MAX_ROWS - 1) * MAX_COLS) + VIDEO_BUFFER_ADDRESS)
      (UInt32.ofNat (2 * MAX_COLS))).val }

/-- The character, or the end of the line. mirrors screen.cpp:49-56 -/
def putChar (v : Vga) (offset : Nat) (c : UInt8) : Nat × Vga :=
  if c = 10 then (2 * (offset / (2 * MAX_COLS) + 1) * MAX_COLS, v)
  else (offset + 2, (v.storeVideo offset c).storeVideo (offset + 1) 0x0f)

/-- What follows every character. mirrors screen.cpp:58-69 -/
def settle (v : Vga) (offset : Nat) : Nat × Vga :=
  let (offset, v) :=
    if offset ≥ 2 * MAX_ROWS * MAX_COLS then (offset - 2 * MAX_COLS, v.scroll) else (offset, v)
  let v := v.setCursorOffset offset
  (offset, v.storeVideo (offset + 1) 0x0f)

/-- mirrors screen.cpp:48-70 -/
def printChar (v : Vga) (offset : Nat) (c : UInt8) : Nat × Vga :=
  let (offset, v) := v.putChar offset c
  v.settle offset

/-- mirrors screen.cpp:72-80 -/
def newScreen (v : Vga) : Vga :=
  let v := { v with mem := (memClear v.mem VIDEO_BUFFER_ADDRESS (UInt32.ofNat (2 * MAX_COLS * MAX_ROWS))).val }
  let v := v.portByteOut REG_SCREEN_CTRL 14
  let v := v.portByteOut REG_SCREEN_DATA 0
  let v := v.portByteOut REG_SCREEN_CTRL 15
  let v := v.portByteOut REG_SCREEN_DATA 0
  v.storeVideo 1 0x0f

/-- mirrors screen.cpp:82-86 -/
def clearScreen (v : Vga) : Vga :=
  let v := { v with mem := (memClear v.mem VIDEO_BUFFER_ADDRESS (UInt32.ofNat (2 * MAX_COLS * MAX_ROWS))).val }
  let v := v.setCursorOffset 0
  v.storeVideo 1 0x0f

/-- mirrors screen.cpp:92-95 -/
def printkLoop : List UInt8 → Nat → Vga → Vga
  | [], _, v => v
  | c :: message, offset, v =>
    let (offset, v) := v.printChar offset c
    printkLoop message offset v

/-- mirrors screen.cpp:88-96 -/
def printk (v : Vga) (message : List UInt8) : Vga :=
  let (offset, v) := v.getCursorOffset
  printkLoop message offset v

end Vga

/-! ## What is on the screen -/

instance : NeZero MAX_COLS := ⟨Nat.succ_ne_zero 79⟩

abbrev Page := Paper UInt8 MAX_COLS

/-- Where the character in this row and column is, relative to the buffer. -/
def cell (row col : Nat) : Nat := 2 * (MAX_COLS * row + col)

/-- `videoBuffer[i]` -/
def videoByte (mem : Memory) (i : Nat) : UInt8 := mem (VIDEO_BUFFER_ADDRESS + UInt32.ofNat i)

/-- The rows show the lines from `top` on, in white. -/
structure ShowsFrom (top : Nat) (p : Page) (mem : Memory) : Prop where
  char : ∀ i j, i < MAX_ROWS → j < MAX_COLS → videoByte mem (cell i j) = (p.charAt (top + i) j).getD 0
  white : ∀ i j, i < MAX_ROWS → j < MAX_COLS → (p.charAt (top + i) j).isSome → videoByte mem (cell i j + 1) = 0x0f

/-- The row of the line that is being typed. -/
def cursorRow (p : Page) : Nat := p.finished.length - p.top MAX_ROWS

/-- The last lines are on the screen and the cursor is behind the last character. -/
structure Shows (p : Page) (v : Vga) : Prop where
  text : ShowsFrom (p.top MAX_ROWS) p v.mem
  cursor : 2 * (256 * (v.registers 14).toNat + (v.registers 15).toNat) = cell (cursorRow p) p.current.length
  visible : videoByte v.mem (cell (cursorRow p) p.current.length + 1) = 0x0f

def videoSpan : Span := ⟨VIDEO_BUFFER_ADDRESS, 2 * MAX_COLS * MAX_ROWS⟩

/-- Nothing but the video memory has changed. -/
def OnlyVideo (mem mem' : Memory) : Prop := ∀ x, ¬ videoSpan.Mem x → mem' x = mem x

theorem OnlyVideo.trans {m1 m2 m3 : Memory} (h1 : OnlyVideo m1 m2) (h2 : OnlyVideo m2 m3) : OnlyVideo m1 m3 :=
  fun x hx => (h2 x hx).trans (h1 x hx)

/-! ## Cells -/

theorem cell_lt {row col : Nat} (hrow : row < MAX_ROWS) (hcol : col < MAX_COLS) : cell row col + 1 < 4000 := by
  unfold MAX_ROWS at hrow
  unfold MAX_COLS at hcol
  unfold cell MAX_COLS
  omega

theorem cell_inj {i j row col : Nat} (hj : j < MAX_COLS) (hcol : col < MAX_COLS) :
    cell i j = cell row col ↔ i = row ∧ j = col := by
  unfold MAX_COLS at hj hcol
  unfold cell MAX_COLS
  omega

theorem cell_succ (row col : Nat) : cell row col + 2 = cell row (col + 1) := by
  unfold cell
  omega

theorem cell_full (row : Nat) : cell row MAX_COLS = cell (row + 1) 0 := by
  unfold cell MAX_COLS
  omega

theorem cell_row (row col : Nat) : cell (row + 1) col = cell row col + 160 := by
  unfold cell MAX_COLS
  omega

theorem cell_newline {row col : Nat} (hcol : col < MAX_COLS) :
    2 * (cell row col / (2 * MAX_COLS) + 1) * MAX_COLS = cell (row + 1) 0 := by
  unfold MAX_COLS at hcol
  unfold cell MAX_COLS
  omega

theorem cell_ge {row col : Nat} (hcol : col < MAX_COLS) : cell row col ≥ 2 * MAX_ROWS * MAX_COLS ↔ MAX_ROWS ≤ row := by
  unfold MAX_COLS at hcol
  unfold cell MAX_COLS MAX_ROWS
  omega

/-- Characters and attributes alternate. -/
theorem cell_ne (i j row col : Nat) : cell i j ≠ cell row col + 1 := by
  unfold cell
  omega

/-! ## Stores -/

theorem videoByte_storeVideo (v : Vga) {i k : Nat} (hi : i < 4000) (hk : k < 4000) (c : UInt8) :
    videoByte (v.storeVideo i c).mem k = if k = i then c else videoByte v.mem k := by
  unfold videoByte Vga.storeVideo
  dsimp only
  rw [Function.update_apply]
  refine if_congr ?_ rfl rfl
  rw [add_right_inj, ← UInt32.toNat_inj, UInt32.toNat_ofNat', UInt32.toNat_ofNat', Nat.mod_eq_of_lt (by omega),
    Nat.mod_eq_of_lt (by omega)]

theorem storeVideo_only (v : Vga) {i : Nat} (hi : i < 4000) (c : UInt8) : OnlyVideo v.mem (v.storeVideo i c).mem := by
  intro x hx
  refine Function.update_of_ne ?_ _ _
  rintro rfl
  exact hx (Span.mem_of_lt hi (by decide))

theorem sub_video {k : Nat} (hk : k < 4000) :
    (VIDEO_BUFFER_ADDRESS + UInt32.ofNat k - VIDEO_BUFFER_ADDRESS).toNat = k := by
  rw [add_sub_cancel_left, UInt32.toNat_ofNat', Nat.mod_eq_of_lt (by omega)]

/-- What scrolling does to the memory. -/
theorem scroll_mem (v : Vga) : v.scroll.mem = cleared
    (copied v.mem (VIDEO_BUFFER_ADDRESS + UInt32.ofNat 160) VIDEO_BUFFER_ADDRESS 3840)
    (VIDEO_BUFFER_ADDRESS + UInt32.ofNat 3840) 160 := by
  have hun : Unclobbered (VIDEO_BUFFER_ADDRESS + UInt32.ofNat 160) VIDEO_BUFFER_ADDRESS 3840 :=
    unclobbered_of_le (by decide) (by decide)
  have hcopy := (copies_memCopy v.mem (VIDEO_BUFFER_ADDRESS + UInt32.ofNat 160) VIDEO_BUFFER_ADDRESS 3840).val hun
  have hclear := (clears_memClear (copied v.mem (VIDEO_BUFFER_ADDRESS + UInt32.ofNat 160) VIDEO_BUFFER_ADDRESS 3840)
    (VIDEO_BUFFER_ADDRESS + UInt32.ofNat 3840) 160).val
  calc v.scroll.mem
      = (memClear (memCopy v.mem (VIDEO_BUFFER_ADDRESS + UInt32.ofNat 160) VIDEO_BUFFER_ADDRESS 3840).val
          (VIDEO_BUFFER_ADDRESS + UInt32.ofNat 3840) 160).val := rfl
    _ = _ := by
        rw [hcopy]
        exact hclear

/-- Each row shows what was in the next one. -/
theorem videoByte_scroll (v : Vga) {k : Nat} (hk : k < 4000) :
    videoByte v.scroll.mem k = if k < 3840 then videoByte v.mem (k + 160) else 0 := by
  have hx := sub_video hk
  have hdist := Span.toNat_sub_base VIDEO_BUFFER_ADDRESS (VIDEO_BUFFER_ADDRESS + UInt32.ofNat k) (by decide : 3840 < 2 ^ 32)
  have hlt := (VIDEO_BUFFER_ADDRESS + UInt32.ofNat k - (VIDEO_BUFFER_ADDRESS + UInt32.ofNat 3840)).toNat_lt
  rw [videoByte, scroll_mem, cleared, copied]
  by_cases hlast : k < 3840
  · rw [if_neg (by omega), if_pos (by omega), if_pos hlast, add_sub_cancel_left, add_assoc, ← UInt32.ofNat_add,
      Nat.add_comm 160 k]
    rfl
  · rw [if_pos (by omega), if_neg hlast]

theorem scroll_only (v : Vga) : OnlyVideo v.mem v.scroll.mem := by
  intro x hx
  have hout : ¬ (x - VIDEO_BUFFER_ADDRESS).toNat < 4000 := hx
  have hdist := Span.toNat_sub_base VIDEO_BUFFER_ADDRESS x (by decide : 3840 < 2 ^ 32)
  rw [scroll_mem, cleared, if_neg (by omega), copied, if_neg (by omega)]

/-- The memory of an empty screen. -/
theorem cleared_mem (mem : Memory) :
    (memClear mem VIDEO_BUFFER_ADDRESS (UInt32.ofNat (2 * MAX_COLS * MAX_ROWS))).val =
      cleared mem VIDEO_BUFFER_ADDRESS 4000 := (clears_memClear mem VIDEO_BUFFER_ADDRESS 4000).val

theorem videoByte_cleared (mem : Memory) {k : Nat} (hk : k < 4000) :
    videoByte (cleared mem VIDEO_BUFFER_ADDRESS 4000) k = 0 := by
  rw [videoByte, cleared, sub_video hk, if_pos hk]

theorem cleared_only (mem : Memory) : OnlyVideo mem (cleared mem VIDEO_BUFFER_ADDRESS 4000) := fun _ hx => if_neg hx

/-! ## The cursor -/

theorem mem_portByteOut (v : Vga) (port : UInt16) (data : UInt8) : (v.portByteOut port data).mem = v.mem := by
  unfold Vga.portByteOut
  split
  · rfl
  · split <;> rfl

theorem mem_setCursorOffset (v : Vga) (offset : Nat) : (v.setCursorOffset offset).mem = v.mem := by
  unfold Vga.setCursorOffset
  simp only [mem_portByteOut]

theorem registers_setCursorOffset (v : Vga) (offset : Nat) :
    (v.setCursorOffset offset).registers 14 = UInt8.ofNat ((offset / 2) >>> 8) ∧
    (v.setCursorOffset offset).registers 15 = UInt8.ofNat ((offset / 2) &&& 0xff) := ⟨rfl, rfl⟩

/-- The two registers hold the place of the cursor. -/
theorem cursor_setCursorOffset (v : Vga) {i : Nat} (hi : i < 65536) :
    256 * ((v.setCursorOffset (2 * i)).registers 14).toNat + ((v.setCursorOffset (2 * i)).registers 15).toNat = i := by
  obtain ⟨hhigh, hlow⟩ := registers_setCursorOffset v (2 * i)
  have hand : i &&& 0xff = i % 256 := Nat.and_two_pow_sub_one_eq_mod i 8
  rw [hhigh, hlow, Nat.mul_div_cancel_left i (by decide), hand, Nat.shiftRight_eq_div_pow, UInt8.toNat_ofNat',
    UInt8.toNat_ofNat']
  omega

theorem getCursorOffset_eq (v : Vga) :
    v.getCursorOffset.1 = 2 * (256 * (v.registers 14).toNat + (v.registers 15).toNat) := by
  have hoffset : v.getCursorOffset.1 = 2 * ((v.registers 14).toNat <<< 8 + (v.registers 15).toNat) := rfl
  rw [hoffset, Nat.shiftLeft_eq]
  omega

/-! ## One character -/

/-- `none` is the end of a line. -/
def typed (c : UInt8) : Option UInt8 := if c = 10 then none else some c

section
variable {top row col : Nat} {p : Page} {v : Vga}

theorem ShowsFrom.attribute (h : ShowsFrom top p v.mem) (hrow : row < MAX_ROWS) (hcol : col < MAX_COLS) :
    ShowsFrom top p (v.storeVideo (cell row col + 1) 0x0f).mem := by
  have hlt := cell_lt hrow hcol
  constructor
  case char =>
    intro i j hi hj
    have hcell := cell_lt hi hj
    rw [videoByte_storeVideo v hlt (by omega), if_neg (cell_ne i j row col)]
    exact h.char i j hi hj
  case white =>
    intro i j hi hj hsome
    rw [videoByte_storeVideo v hlt (cell_lt hi hj)]
    split
    · rfl
    · exact h.white i j hi hj hsome

/-- A character behind the last one. -/
theorem ShowsFrom.put (h : ShowsFrom top p v.mem) (htop : top ≤ p.finished.length)
    (hrow : p.finished.length - top < MAX_ROWS) (c : UInt8) :
    ShowsFrom top (p.put c) ((v.storeVideo (cell (p.finished.length - top) p.current.length) c).storeVideo
      (cell (p.finished.length - top) p.current.length + 1) 0x0f).mem := by
  have hlt := cell_lt hrow p.short
  constructor
  case char =>
    intro i j hi hj
    have hcell := cell_lt hi hj
    rw [videoByte_storeVideo _ hlt (by omega), if_neg (cell_ne _ _ _ _), videoByte_storeVideo v (by omega) (by omega),
      Paper.charAt_put]
    by_cases hhere : i = p.finished.length - top ∧ j = p.current.length
    · rw [if_pos ((cell_inj hj p.short).mpr hhere), if_pos ⟨by omega, hhere.2⟩, Option.getD_some]
    · rw [if_neg (fun heq => hhere ((cell_inj hj p.short).mp heq)), if_neg (fun heq => hhere ⟨by omega, heq.2⟩)]
      exact h.char i j hi hj
  case white =>
    intro i j hi hj hsome
    rw [Paper.charAt_put] at hsome
    rw [videoByte_storeVideo _ hlt (cell_lt hi hj)]
    by_cases hhere : i = p.finished.length - top ∧ j = p.current.length
    · rw [if_pos (Nat.add_right_cancel_iff.mpr ((cell_inj hj p.short).mpr hhere))]
    · rw [if_neg (fun heq => hhere ⟨by omega, heq.2⟩)] at hsome
      rw [if_neg (fun heq => hhere ((cell_inj hj p.short).mp (Nat.add_right_cancel heq))), videoByte_storeVideo v (by omega) (cell_lt hi hj), if_neg (Ne.symm (cell_ne _ _ _ _))]
      exact h.white i j hi hj hsome

theorem ShowsFrom.newline (h : ShowsFrom top p v.mem) : ShowsFrom top p.newline v.mem := by
  constructor
  case char =>
    intro i j hi hj
    rw [Paper.charAt_newline]
    exact h.char i j hi hj
  case white =>
    intro i j hi hj hsome
    rw [Paper.charAt_newline] at hsome
    exact h.white i j hi hj hsome

/-- Scrolling shows the next line, which is empty. -/
theorem ShowsFrom.scroll (h : ShowsFrom top p v.mem) (hlast : ∀ j, p.charAt (top + MAX_ROWS) j = none) :
    ShowsFrom (top + 1) p v.scroll.mem := by
  have hnext (i j : Nat) (hi : i < MAX_ROWS) (hj : j < MAX_COLS) : cell i j < 3840 ↔ i + 1 < MAX_ROWS := by
    unfold MAX_ROWS at hi ⊢
    unfold MAX_COLS at hj
    unfold cell MAX_COLS
    omega
  have hempty (i j : Nat) (hi : i < MAX_ROWS) (hend : ¬ i + 1 < MAX_ROWS) : p.charAt (top + 1 + i) j = none := by
    rw [show top + 1 + i = top + MAX_ROWS by omega]
    exact hlast j
  constructor
  case char =>
    intro i j hi hj
    have hcell := cell_lt hi hj
    rw [videoByte_scroll v (by omega)]
    by_cases hmore : i + 1 < MAX_ROWS
    · rw [if_pos ((hnext i j hi hj).mpr hmore), ← cell_row, h.char (i + 1) j hmore hj, Nat.add_right_comm]
      rfl
    · rw [if_neg (fun hlt => hmore ((hnext i j hi hj).mp hlt)), hempty i j hi hmore]
      rfl
  case white =>
    intro i j hi hj hsome
    by_cases hmore : i + 1 < MAX_ROWS
    · have hcell := cell_lt hmore hj
      rw [cell_row] at hcell
      rw [videoByte_scroll v (by omega), if_pos (by omega), Nat.add_right_comm, ← cell_row]
      rw [Nat.add_right_comm] at hsome
      exact h.white (i + 1) j hmore hj hsome
    · rw [hempty i j hi hmore] at hsome
      cases hsome

/-- A character finishes the line or not. -/
theorem type_cases (p : Page) (c : Option UInt8) :
    (p.type c).finished.length = p.finished.length ∧ (p.type c).current.length = p.current.length + 1 ∨
    (p.type c).finished.length = p.finished.length + 1 ∧ (p.type c).current = [] := by
  cases c with
  | none => exact .inr ⟨List.length_append, rfl⟩
  | some c =>
    show (p.put c).finished.length = p.finished.length ∧ (p.put c).current.length = p.current.length + 1 ∨
      (p.put c).finished.length = p.finished.length + 1 ∧ (p.put c).current = []
    have hcurrent := p.current_put c
    rw [p.finished_put, hcurrent]
    split
    · exact .inl ⟨rfl, rfl⟩
    · rename_i hfull
      rw [if_neg hfull] at hcurrent
      exact .inr ⟨rfl, List.length_eq_zero_iff.mp hcurrent⟩

theorem top_le (p : Page) : p.top MAX_ROWS ≤ p.finished.length := by
  unfold Paper.top MAX_ROWS
  omega

theorem cursorRow_lt (p : Page) : cursorRow p < MAX_ROWS := by
  unfold cursorRow Paper.top MAX_ROWS
  omega

/-- The text is there, and the offset is behind it; scrolling comes after that. -/
theorem Shows.putChar (h : Shows p v) (c : UInt8) :
    (v.putChar (cell (cursorRow p) p.current.length) c).1 =
      cell ((p.type (typed c)).finished.length - p.top MAX_ROWS) (p.type (typed c)).current.length ∧
    ShowsFrom (p.top MAX_ROWS) (p.type (typed c)) (v.putChar (cell (cursorRow p) p.current.length) c).2.mem ∧
    OnlyVideo v.mem (v.putChar (cell (cursorRow p) p.current.length) c).2.mem := by
  have htop := top_le p
  have hlt := cell_lt (cursorRow_lt p) p.short
  unfold Vga.putChar typed
  by_cases hend : c = 10
  · rw [if_pos hend, if_pos hend]
    refine ⟨?_, h.text.newline, fun _ _ => rfl⟩
    have hlength : (p.newline).finished.length = p.finished.length + 1 := List.length_append
    show _ = cell ((p.newline).finished.length - p.top MAX_ROWS) 0
    rw [hlength, Nat.sub_add_comm htop]
    exact cell_newline p.short
  · rw [if_neg hend, if_neg hend]
    refine ⟨?_, h.text.put htop (cursorRow_lt p) c, ?_⟩
    · show cell (cursorRow p) p.current.length + 2 =
        cell ((p.put c).finished.length - p.top MAX_ROWS) (p.put c).current.length
      have hshort := p.short
      rw [p.finished_put, p.current_put, cell_succ]
      split
      · rfl
      · rw [show p.current.length + 1 = MAX_COLS by omega, cell_full, Nat.sub_add_comm htop]
        rfl
    · exact (storeVideo_only v (by omega) c).trans (storeVideo_only _ hlt 0x0f)

/-- The state behind a character, from the text on the screen and the offset. -/
theorem settle_within (h : ShowsFrom (p.top MAX_ROWS) p v.mem) :
    (v.settle (cell (cursorRow p) p.current.length)).1 = cell (cursorRow p) p.current.length ∧
    Shows p (v.settle (cell (cursorRow p) p.current.length)).2 ∧
    OnlyVideo v.mem (v.settle (cell (cursorRow p) p.current.length)).2.mem := by
  have hrow := cursorRow_lt p
  have hlt := cell_lt hrow p.short
  unfold Vga.settle
  rw [if_neg (fun hge => absurd ((cell_ge p.short).mp hge) (by omega))]
  refine ⟨rfl, ⟨?_, ?_, ?_⟩, ?_⟩
  · exact ShowsFrom.attribute (v := v.setCursorOffset _) h hrow p.short
  · have hcursor := cursor_setCursorOffset v (show MAX_COLS * cursorRow p + p.current.length < 65536 by
      unfold cell at hlt
      omega)
    exact congrArg (2 * ·) hcursor
  · exact (videoByte_storeVideo _ hlt hlt _).trans (if_pos rfl)
  · exact storeVideo_only (v.setCursorOffset _) hlt 0x0f

/-- The line behind the last row is empty: everything moves up. -/
theorem settle_scrolled (h : ShowsFrom top p v.mem) (hlines : p.finished.length = top + MAX_ROWS)
    (hempty : p.current = []) :
    (v.settle (cell MAX_ROWS 0)).1 = cell (cursorRow p) p.current.length ∧ Shows p (v.settle (cell MAX_ROWS 0)).2 ∧
    OnlyVideo v.mem (v.settle (cell MAX_ROWS 0)).2.mem := by
  have htop : p.top MAX_ROWS = top + 1 := by
    unfold Paper.top
    omega
  have hrow : cell (cursorRow p) p.current.length = cell (MAX_ROWS - 1) 0 := by
    rw [cursorRow, htop, hempty, hlines, Nat.add_sub_add_left]
    rfl
  have hlast (j : Nat) : p.charAt (top + MAX_ROWS) j = none := by
    rw [← hlines]
    exact Paper.charAt_free (by rw [hempty]; exact Nat.zero_le j)
  have hscrolled : v.settle (cell MAX_ROWS 0) = v.scroll.settle (cell (cursorRow p) p.current.length) := by
    rw [hrow]
    rfl
  have htext : ShowsFrom (p.top MAX_ROWS) p v.scroll.mem := by
    rw [htop]
    exact h.scroll hlast
  obtain ⟨hoffset, hshows, honly⟩ := settle_within htext
  rw [hscrolled]
  exact ⟨hoffset, hshows, (scroll_only v).trans honly⟩

theorem Shows.printChar (h : Shows p v) (c : UInt8) :
    (v.printChar (cell (cursorRow p) p.current.length) c).1 =
      cell (cursorRow (p.type (typed c))) (p.type (typed c)).current.length ∧
    Shows (p.type (typed c)) (v.printChar (cell (cursorRow p) p.current.length) c).2 ∧
    OnlyVideo v.mem (v.printChar (cell (cursorRow p) p.current.length) c).2.mem := by
  obtain ⟨hoffset, htext, honly⟩ := h.putChar c
  have hrow := cursorRow_lt p
  have htop := top_le p
  unfold cursorRow at hrow
  unfold Vga.printChar
  generalize v.putChar (cell (cursorRow p) p.current.length) c = w at hoffset htext honly
  obtain ⟨offset, w⟩ := w
  dsimp only at hoffset htext honly ⊢
  subst hoffset
  have hcases := type_cases p (typed c)
  generalize p.type (typed c) = q at hcases htext
  by_cases hfits : q.finished.length - p.top MAX_ROWS < MAX_ROWS
  · have hsame : p.top MAX_ROWS = q.top MAX_ROWS := by
      unfold Paper.top at hfits ⊢
      omega
    rw [hsame] at htext ⊢
    obtain ⟨h1, h2, h3⟩ := settle_within htext
    exact ⟨h1, h2, honly.trans h3⟩
  · have hlines : q.finished.length = p.top MAX_ROWS + MAX_ROWS := by omega
    have hempty : q.current = [] := by
      rcases hcases with ⟨hstays, -⟩ | ⟨-, hempty⟩
      · omega
      · exact hempty
    have hbehind : cell (q.finished.length - p.top MAX_ROWS) q.current.length = cell MAX_ROWS 0 := by
      rw [hlines, Nat.add_sub_cancel_left, hempty]
      rfl
    obtain ⟨h1, h2, h3⟩ := settle_scrolled htext hlines hempty
    rw [hbehind]
    exact ⟨h1, h2, honly.trans h3⟩

end

/-! ## All output -/

theorem Shows.printkLoop (message : List UInt8) : ∀ {p : Page} {v : Vga}, Shows p v →
    Shows (p.typeAll (message.map typed)) (Vga.printkLoop message (cell (cursorRow p) p.current.length) v) ∧
    OnlyVideo v.mem (Vga.printkLoop message (cell (cursorRow p) p.current.length) v).mem := by
  induction message with
  | nil => exact fun h => ⟨h, fun _ _ => rfl⟩
  | cons c message ih =>
    intro p v h
    obtain ⟨hoffset, hshows, honly⟩ := h.printChar c
    obtain ⟨hrest, honly'⟩ := ih hshows
    rw [Vga.printkLoop]
    dsimp only
    rw [hoffset]
    exact ⟨hrest, honly.trans honly'⟩

theorem Shows.printk {p : Page} {v : Vga} (h : Shows p v) (message : List UInt8) :
    Shows (p.typeAll (message.map typed)) (v.printk message) ∧ OnlyVideo v.mem (v.printk message).mem := by
  have hoffset : v.getCursorOffset.1 = cell (cursorRow p) p.current.length := (getCursorOffset_eq v).trans h.cursor
  have hshows : Shows p v.getCursorOffset.2 := ⟨h.text, h.cursor, h.visible⟩
  unfold Vga.printk
  dsimp only
  rw [hoffset]
  exact hshows.printkLoop message

/-- A cleared buffer with the cursor in its first cell. -/
theorem shows_blank {v : Vga} {mem : Memory} (hmem : v.mem = cleared mem VIDEO_BUFFER_ADDRESS 4000)
    (hhigh : v.registers 14 = 0) (hlow : v.registers 15 = 0) :
    Shows Paper.blank (v.storeVideo 1 0x0f) ∧ OnlyVideo mem (v.storeVideo 1 0x0f).mem := by
  have hempty (i j : Nat) : (Paper.blank : Page).charAt i j = none := by
    rcases Nat.eq_zero_or_pos i with rfl | hi
    · exact Paper.charAt_free (Nat.zero_le j)
    · exact Paper.charAt_below hi
  have htext : ShowsFrom 0 Paper.blank v.mem := by
    constructor
    case char =>
      intro i j hi hj
      have hcell := cell_lt hi hj
      rw [hmem, videoByte_cleared mem (by omega), hempty]
      rfl
    case white =>
      intro i j hi hj hsome
      rw [hempty] at hsome
      cases hsome
  refine ⟨⟨?_, ?_, ?_⟩, ?_⟩
  · have hwhite : ShowsFrom 0 Paper.blank (v.storeVideo (cell 0 0 + 1) 0x0f).mem :=
      htext.attribute (by decide) (by decide)
    exact hwhite
  · show 2 * (256 * (v.registers 14).toNat + (v.registers 15).toNat) = 0
    rw [hhigh, hlow]
    rfl
  · exact (videoByte_storeVideo v (by decide) (by decide) 0x0f).trans (if_pos rfl)
  · have hcleared := cleared_only mem
    rw [← hmem] at hcleared
    exact hcleared.trans (storeVideo_only v (by decide) 0x0f)

theorem shows_newScreen (v : Vga) : Shows Paper.blank v.newScreen ∧ OnlyVideo v.mem v.newScreen.mem := by
  unfold Vga.newScreen
  refine shows_blank ?_ rfl rfl
  simp only [mem_portByteOut]
  exact cleared_mem v.mem

theorem shows_clearScreen (v : Vga) : Shows Paper.blank v.clearScreen ∧ OnlyVideo v.mem v.clearScreen.mem := by
  unfold Vga.clearScreen
  refine shows_blank ?_ rfl rfl
  simp only [mem_setCursorOffset]
  exact cleared_mem v.mem

inductive Output where
  | printk (message : List UInt8)
  | clearScreen

def Vga.output (v : Vga) : Output → Vga
  | .printk message => v.printk message
  | .clearScreen => v.clearScreen

/-- What has been typed since the screen was cleared. -/
def written (p : Page) : Output → Page
  | .printk message => p.typeAll (message.map typed)
  | .clearScreen => Paper.blank

/-- One output. -/
theorem Shows.output {p : Page} {v : Vga} (h : Shows p v) (o : Output) :
    Shows (written p o) (v.output o) ∧ OnlyVideo v.mem (v.output o).mem := by
  cases o with
  | printk message => exact h.printk message
  | clearScreen => exact shows_clearScreen v

theorem Shows.outputs (outputs : List Output) : ∀ {p : Page} {v : Vga}, Shows p v →
    Shows (outputs.foldl written p) (outputs.foldl Vga.output v) ∧ OnlyVideo v.mem (outputs.foldl Vga.output v).mem := by
  induction outputs with
  | nil => exact fun h => ⟨h, fun _ _ => rfl⟩
  | cons o outputs ih =>
    intro p v h
    obtain ⟨hshows, honly⟩ := h.output o
    obtain ⟨hrest, honly'⟩ := ih hshows
    exact ⟨hrest, honly.trans honly'⟩

/-- Whatever is printed, the screen shows the last lines of what has been
typed since it was cleared, with the cursor behind it, and no byte outside
the video memory changes. -/
theorem screen_shows (v : Vga) (outputs : List Output) :
    Shows (outputs.foldl written Paper.blank) (outputs.foldl Vga.output v.newScreen) ∧
    OnlyVideo v.mem (outputs.foldl Vga.output v.newScreen).mem := by
  obtain ⟨hblank, honly⟩ := shows_newScreen v
  obtain ⟨hshows, honly'⟩ := hblank.outputs outputs
  exact ⟨hshows, honly.trans honly'⟩

/-! ## What the tasks print -/

section
variable {T : Nat} {c c' : L4.Core T}

theorem typeAll_append (p : Page) (text text' : List UInt8) :
    p.typeAll ((text ++ text').map typed) = (p.typeAll (text.map typed)).typeAll (text'.map typed) := by
  rw [List.map_append]
  exact List.foldl_append

/-- The computation prints behind what was printed before. -/
def Appends (c : L4.Core T) (x : Traced L4.Access (Option (L4.Core T))) : Prop :=
  ∃ printed, x.val.map L4.Core.screen = some (c.screen ++ printed)

end

end CpuScheduler.L9
