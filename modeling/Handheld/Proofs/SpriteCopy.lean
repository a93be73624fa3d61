import Handheld.Proofs.BusReads

/-!
# A copy to the sprite table is a snapshot

The copy reads and stores one byte after another on the same bus. Still it leaves in the sprite
table what its source page read before the copy began, whichever page that is, and it changes
nothing else.
-/

namespace Handheld

theorem Region.ofAddress_sprite {a : UInt16} (h : 0xfe00 ≤ a ∧ a < 0xfea0) :
    Region.ofAddress a = .plain := by
  grind [Region.ofAddress]

namespace Bus

theorem toNat_page (v : UInt8) {i : Nat} (h : i < 256) :
    (Word.ofBytes v 0 + UInt16.ofNat i).toNat = v.toNat * 256 + i := by
  have := v.toNat_lt
  have hi : (UInt16.ofNat i).toNat = i := UInt16.toNat_ofNat_of_lt (Nat.lt_trans h (by decide))
  rw [UInt16.toNat_add, Word.toNat_ofBytes, hi]
  simp only [UInt8.reduceToNat]
  omega

/-- After `n` bytes the first `n` of the sprite table are those of the source before the copy. -/
theorem read_copied_page (bus : Bus) (v : UInt8) {n : Nat} (hn : n ≤ 160) (a : UInt16) :
    (bus.copied (Word.ofBytes v 0) n).read a =
      if 0xfe00 ≤ a.toNat ∧ a.toNat < 0xfe00 + n then
        bus.read (Word.ofBytes v 0 + UInt16.ofNat (a.toNat - 0xfe00))
      else bus.read a := by
  induction n generalizing a with
  | zero =>
    rw [if_neg (by omega)]
    rfl
  | succ n ih =>
    have htarget := toNat_sprite (i := n) (by omega)
    have hsource := toNat_page v (i := n) (by omega)
    have hcell : (Region.ofAddress (0xfe00 + UInt16.ofNat n)).isCell := by
      rw [Region.ofAddress_sprite (sprite_address (by omega))]
      rfl
    -- The byte that is read next lies on another page, or is the very one that is written next.
    have hnext : (bus.copied (Word.ofBytes v 0) n).read (Word.ofBytes v 0 + UInt16.ofNat n) =
        bus.read (Word.ofBytes v 0 + UInt16.ofNat n) := by
      rw [ih (by omega), if_neg (by omega)]
    rw [copied_succ, hnext]
    by_cases ha : 0xfe00 + UInt16.ofNat n = a
    · subst ha
      rw [read_store_self _ _ hcell, if_pos (by omega), htarget, Nat.add_sub_cancel_left]
    · have hne : a.toNat ≠ 0xfe00 + n := by
        intro heq
        apply ha
        rw [← UInt16.toNat_inj, htarget, heq]
      rw [read_store_of_ne _ _ ha, ih (by omega)]
      by_cases hbefore : 0xfe00 ≤ a.toNat ∧ a.toNat < 0xfe00 + n
      · rw [if_pos hbefore, if_pos (by omega)]
      · rw [if_neg hbefore, if_neg (by omega)]

theorem copied_eq (bus : Bus) (source : UInt16) (n : Nat) :
    bus.copied source n = { bus with cells := (bus.copied source n).cells } := by
  have hrest := apply_copied (f := fun b => { b with cells := default }) (fun _ _ _ => rfl) bus
    source n
  exact congrArg (fun b => { b with cells := (bus.copied source n).cells }) hrest

theorem write_dma (bus : Bus) (v : UInt8) : bus.write 0xff46 v = bus.dma v := rfl

theorem ofBytes_zero (v : UInt8) : Word.ofBytes v 0 = v.toUInt16 * 0x100 :=
  UInt16.add_zero _

/-- Whatever controller and registers answer on the page `v`, a copy leaves in the sprite table
what the page read before it. It changes nothing else but the log: not even the register that
started it. -/
theorem sprites_after_dma (bus : Bus) (v : UInt8) :
    (∀ i < 160, (bus.write 0xff46 v).read (0xfe00 + UInt16.ofNat i) =
        bus.read (v.toUInt16 * 0x100 + UInt16.ofNat i)) ∧
      (∀ a, ¬ (0xfe00 ≤ a ∧ a < 0xfea0) → (bus.write 0xff46 v).read a = bus.read a) ∧
      bus.write 0xff46 v =
        { bus.report (.dmaStarted (v.toUInt16 * 0x100)) with
          cells := (bus.write 0xff46 v).cells } := by
  have hread := read_copied_page (bus.report (.dmaStarted (Word.ofBytes v 0))) v (Nat.le_refl 160)
  rw [← dma_eq] at hread
  rw [write_dma, ← ofBytes_zero]
  refine ⟨?_, ?_, ?_⟩
  · intro i hi
    have htarget := toNat_sprite hi
    rw [hread, if_pos (by omega), htarget, Nat.add_sub_cancel_left, read_report]
  · intro a ha
    exact read_dma_of_not_sprites bus v ha
  · exact copied_eq _ _ _

theorem sprites_after_dma_registers :
    (15 : Nat) < 160 ∧ ((default : Bus).write 0xff46 0xff).read 0xfe0f = 0xe0 ∧
      ((default : Bus).write 0xff46 0xff).read 0xff46 = 0 ∧
      (((default : Bus).store 0xfe9f 0x42).write 0xff46 0xfe).read 0xfe9f = 0x42 := by
  have hlt : 15 < 160 := by decide
  obtain ⟨hflags, hrest, -⟩ := sprites_after_dma default 0xff
  obtain ⟨hitself, -, -⟩ := sprites_after_dma ((default : Bus).store 0xfe9f 0x42) 0xfe
  refine ⟨hlt, ?_, ?_, ?_⟩
  · exact hflags 15 hlt
  · rw [hrest 0xff46 (by decide), read_eq_cell _ (by decide)]
    exact Cells.get_ofFn (fun _ => 0) _
  · exact (hitself 159 (by decide)).trans (read_store_self _ _ (by decide))

end Bus

end Handheld
