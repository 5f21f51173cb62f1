import Mathlib.Data.List.Basic

/-! A token handed over again and again. A server holds the current token; its owner keeps
a copy of a token and of the next one, in memory and on disk, and asks the server to put the
next token in the place of the token. Requests are lost, late or repeated, writes may reach
the disk only, and the memory is lost at a crash. `Aligned` says how the server's token, the
tokens it has given up, the two copies and the requests stand to each other, and there is
one rule for each thing that can happen. -/

namespace Handover

/-- A token and, once one has been minted, the next. -/
abbrev Copy (τ : Type*) := τ × Option τ

variable {τ : Type*}

/-- The server's token is the copy's token or its next one. -/
def Covers (current : τ) (spent : List τ) (c : Copy τ) : Prop :=
  (c.1 = current ∧ ∀ y, c.2 = some y → y ≠ current ∧ y ∉ spent) ∨
    (c.2 = some current ∧ c.1 ∈ spent)

/-- A request that would move the server's token, or one that comes too late to. -/
def Placed (current : τ) (spent : List τ) (q : τ × τ) : Prop :=
  (q.1 = current ∧ q.2 ≠ current ∧ q.2 ∉ spent) ∨
    (q.1 ∈ spent ∧ (q.2 ∈ spent ∨ q.2 = current))

structure Aligned (current : τ) (spent : List τ) (disk memory : Option (Copy τ))
    (asked : List (τ × τ)) : Prop where
  fresh : current ∉ spent
  onDisk : ∀ c, disk = some c → Covers current spent c
  inMemory : ∀ c, memory = some c → Covers current spent c
  /-- A next token that the owner may ask with is on disk. -/
  written : ∀ y, memory = some (current, some y) → ∀ c, disk = some c → c = (current, some y)
  placed : ∀ q ∈ asked, Placed current spent q
  /-- Who asks to move the current token agrees with everyone on the next. -/
  pending : ∀ q ∈ asked, q.1 = current →
    (∀ c, disk = some c ∨ memory = some c → c = (current, some q.2)) ∧
      ∀ p ∈ asked, p.1 = current → p.2 = q.2

variable {current : τ} {spent : List τ} {disk memory : Option (Copy τ)} {asked : List (τ × τ)}

theorem start (token : τ) (hdisk : ∀ c, disk = some c → c = (token, none))
    (hmemory : ∀ c, memory = some c → c = (token, none)) :
    Aligned token [] disk memory [] where
  fresh := List.not_mem_nil
  onDisk := fun c hc => Or.inl ⟨by rw [hdisk c hc], fun y hy => by rw [hdisk c hc] at hy; cases hy⟩
  inMemory := fun c hc =>
    Or.inl ⟨by rw [hmemory c hc], fun y hy => by rw [hmemory c hc] at hy; cases hy⟩
  written := fun y hy => by cases hmemory _ hy
  placed := fun q hq => by cases hq
  pending := fun q hq => by cases hq

namespace Aligned

/-- A request for the current token is served. -/
theorem serve (h : Aligned current spent disk memory asked) {q : τ × τ} (hq : q ∈ asked)
    (hcurrent : q.1 = current) : Aligned q.2 (current :: spent) disk memory asked := by
  obtain ⟨hcopies, hone⟩ := h.pending q hq hcurrent
  have hnew : q.2 ≠ current ∧ q.2 ∉ spent := by
    rcases h.placed q hq with ⟨-, hne, hns⟩ | ⟨hs, -⟩
    · exact ⟨hne, hns⟩
    · exact absurd (hcurrent ▸ hs) h.fresh
  have hcovers : ∀ c, disk = some c ∨ memory = some c → Covers q.2 (current :: spent) c :=
    fun c hc => Or.inr (by rw [hcopies c hc]; exact ⟨rfl, List.mem_cons_self⟩)
  have hplaced : ∀ p ∈ asked, p.1 ∈ current :: spent ∧ (p.2 ∈ current :: spent ∨ p.2 = q.2) := by
    intro p hp
    rcases h.placed p hp with ⟨hpc, -⟩ | ⟨hs, hs' | hc⟩
    · exact ⟨List.mem_cons.2 (Or.inl hpc), Or.inr (hone p hp hpc)⟩
    · exact ⟨List.mem_cons_of_mem _ hs, Or.inl (List.mem_cons_of_mem _ hs')⟩
    · exact ⟨List.mem_cons_of_mem _ hs, Or.inl (List.mem_cons.2 (Or.inl hc))⟩
  have hlate : ∀ p ∈ asked, p.1 ≠ q.2 := by
    rintro p hp heq
    rcases List.mem_cons.1 (heq ▸ (hplaced p hp).1) with he | hs
    · exact hnew.1 he
    · exact hnew.2 hs
  refine ⟨?_, fun c hc => hcovers c (Or.inl hc), fun c hc => hcovers c (Or.inr hc), ?_,
    fun p hp => Or.inr (hplaced p hp), fun p hp heq => absurd heq (hlate p hp)⟩
  · rintro hmem
    rcases List.mem_cons.1 hmem with he | hs
    · exact hnew.1 he
    · exact hnew.2 hs
  · intro y hy
    have heq := hcopies _ (Or.inr hy)
    exact absurd (congrArg Prod.fst heq) hnew.1

/-- The owner mints a next token and writes it down; a write that fails may reach the disk. -/
theorem mint (h : Aligned current spent disk memory asked) {token y : τ}
    (hmemory : memory = some (token, none)) (hne : y ≠ current) (hns : y ∉ spent) :
    Aligned current spent (some (token, some y)) memory asked ∧
      Aligned current spent (some (token, some y)) (some (token, some y)) asked := by
  have htoken : token = current := by
    rcases h.inMemory _ hmemory with ⟨hc, -⟩ | ⟨hc, -⟩
    · exact hc
    · cases hc
  subst htoken
  have hcovers : Covers token spent (token, some y) :=
    Or.inl ⟨rfl, fun z hz => by cases hz; exact ⟨hne, hns⟩⟩
  have hnone : ∀ q ∈ asked, q.1 ≠ token := by
    intro q hq heq
    have := (h.pending q hq heq).1 _ (Or.inr hmemory)
    simp at this
  constructor
  · refine ⟨h.fresh, ?_, h.inMemory, ?_, h.placed, fun q hq heq => absurd heq (hnone q hq)⟩
    · rintro c ⟨rfl⟩
      exact hcovers
    · intro z hz
      rw [hmemory] at hz
      simp at hz
  · refine ⟨h.fresh, ?_, ?_, ?_, h.placed, fun q hq heq => absurd heq (hnone q hq)⟩
    · rintro c ⟨rfl⟩
      exact hcovers
    · rintro c ⟨rfl⟩
      exact hcovers
    · rintro z ⟨rfl⟩ c ⟨rfl⟩
      rfl

/-- The owner asks, again or for the first time, with the copy in memory. -/
theorem ask (h : Aligned current spent disk memory asked) {token y : τ}
    (hmemory : memory = some (token, some y)) :
    Aligned current spent disk memory ((token, y) :: asked) := by
  have hplaced : Placed current spent (token, y) := by
    rcases h.inMemory _ hmemory with ⟨hc, hy⟩ | ⟨hy, hs⟩
    · exact Or.inl ⟨hc, hy y rfl⟩
    · exact Or.inr ⟨hs, Or.inr (Option.some.inj hy)⟩
  have hcopies : token = current → ∀ c, disk = some c ∨ memory = some c →
      c = (current, some y) := by
    rintro rfl c (hc | hc)
    · exact h.written y hmemory c hc
    · rw [hmemory] at hc
      exact (Option.some.inj hc).symm
  have hone : token = current → ∀ p ∈ asked, p.1 = current → p.2 = y := by
    rintro rfl p hp heq
    have := (h.pending p hp heq).1 _ (Or.inr hmemory)
    simpa using this.symm
  refine ⟨h.fresh, h.onDisk, h.inMemory, h.written, ?_, ?_⟩
  · rintro q hq
    rcases List.mem_cons.1 hq with rfl | hq
    · exact hplaced
    · exact h.placed q hq
  · intro q hq heq
    rcases List.mem_cons.1 hq with rfl | hq
    · refine ⟨hcopies heq, fun p hp hpc => ?_⟩
      rcases List.mem_cons.1 hp with rfl | hp
      · rfl
      · exact hone heq p hp hpc
    · refine ⟨(h.pending q hq heq).1, fun p hp hpc => ?_⟩
      rcases List.mem_cons.1 hp with rfl | hp
      · exact (hone hpc q hq heq).symm
      · exact (h.pending q hq heq).2 p hp hpc

/-- A next token that the server has had is the server's. -/
theorem next_eq (h : Aligned current spent disk memory asked) {token y : τ}
    (hmemory : memory = some (token, some y)) (hreached : y = current ∨ y ∈ spent) :
    y = current := by
  refine hreached.resolve_right fun hs => ?_
  rcases h.inMemory _ hmemory with ⟨-, hy⟩ | ⟨hy, -⟩
  · exact (hy y rfl).2 hs
  · exact h.fresh (Option.some.inj hy ▸ hs)

/-- The owner is told that the server has its next token, and takes it for its token. -/
theorem accept (h : Aligned current spent disk memory asked) {token : τ}
    (hmemory : memory = some (token, some current)) :
    Aligned current spent (some (current, none)) memory asked ∧
      Aligned current spent (some (current, none)) (some (current, none)) asked := by
  have hcovers : Covers current spent (current, none) := Or.inl ⟨rfl, nofun⟩
  have hspent : token ∈ spent := by
    rcases h.inMemory _ hmemory with ⟨-, hy⟩ | ⟨-, hs⟩
    · exact absurd rfl (hy current rfl).1
    · exact hs
  have hne : token ≠ current := fun heq => h.fresh (heq ▸ hspent)
  have hnone : ∀ q ∈ asked, q.1 ≠ current := by
    intro q hq heq
    have := (h.pending q hq heq).1 _ (Or.inr hmemory)
    exact hne (congrArg Prod.fst this)
  constructor
  · refine ⟨h.fresh, ?_, h.inMemory, ?_, h.placed, fun q hq heq => absurd heq (hnone q hq)⟩
    · rintro c ⟨rfl⟩
      exact hcovers
    · intro z hz
      rw [hmemory] at hz
      exact absurd (congrArg Prod.fst (Option.some.inj hz)) hne
  · refine ⟨h.fresh, ?_, ?_, ?_, h.placed, fun q hq heq => absurd heq (hnone q hq)⟩
    · rintro c ⟨rfl⟩
      exact hcovers
    · rintro c ⟨rfl⟩
      exact hcovers
    · rintro z hz
      simp at hz

/-- What is in memory is written to disk once more. -/
theorem store (h : Aligned current spent disk memory asked) :
    Aligned current spent memory memory asked where
  fresh := h.fresh
  onDisk := h.inMemory
  inMemory := h.inMemory
  written := fun y hy c hc => by
    rw [hy] at hc
    exact (Option.some.inj hc).symm
  placed := h.placed
  pending := fun q hq heq =>
    ⟨fun c hc => (h.pending q hq heq).1 c (Or.inr (hc.elim id id)), (h.pending q hq heq).2⟩

/-- The copy on disk goes. -/
theorem erase (h : Aligned current spent disk memory asked) :
    Aligned current spent none memory asked where
  fresh := h.fresh
  onDisk := nofun
  inMemory := h.inMemory
  written := fun _ _ _ hc => by cases hc
  placed := h.placed
  pending := fun q hq heq =>
    ⟨fun c hc => (h.pending q hq heq).1 c (Or.inr (hc.resolve_left nofun)),
      (h.pending q hq heq).2⟩

/-- The copy in memory goes. -/
theorem crash (h : Aligned current spent disk memory asked) :
    Aligned current spent disk none asked where
  fresh := h.fresh
  onDisk := h.onDisk
  inMemory := nofun
  written := nofun
  placed := h.placed
  pending := fun q hq heq =>
    ⟨fun c hc => (h.pending q hq heq).1 c (Or.inl (hc.resolve_right nofun)),
      (h.pending q hq heq).2⟩

/-- The copy in memory is that on disk. -/
theorem load (h : Aligned current spent disk memory asked) :
    Aligned current spent disk disk asked where
  fresh := h.fresh
  onDisk := h.onDisk
  inMemory := h.onDisk
  written := fun y hy c hc => by
    rw [hy] at hc
    exact (Option.some.inj hc).symm
  placed := h.placed
  pending := fun q hq heq =>
    ⟨fun c hc => (h.pending q hq heq).1 c (Or.inl (hc.elim id id)), (h.pending q hq heq).2⟩

end Aligned
end Handover
