import Amalgam.Bucket

/-! # The fragment cache

A pass may bring only the fragments of what has changed. The cache remembers the last full list of
fragments of every module, by identity: what a pass brings comes first and takes the place of the
buckets it brings, and the fragments of the other buckets are carried over behind it.
-/

namespace Amalgam

structure Cache where
  entries : Table Identity (List Fragment)
deriving DecidableEq

namespace Cache

def empty : Cache := ⟨[]⟩

instance : Inhabited Cache := ⟨empty⟩

def size (c : Cache) : Nat := c.entries.length

def fragments (c : Cache) (id : Identity) : List Fragment := (c.entries.get? id).getD []

def carried (c : Cache) (id : Identity) (incoming : List Fragment) : List Fragment :=
  (c.fragments id).filter fun f => f.key ∉ incoming.map Fragment.key

/-- What a merge gives back and remembers: what is brought, then what is carried over. -/
def merged (c : Cache) (id : Identity) (incoming : List Fragment) : List Fragment :=
  incoming ++ c.carried id incoming

def merge (c : Cache) (id : Identity) (incoming : List Fragment) : Cache :=
  ⟨c.entries.put id (c.merged id incoming)⟩

theorem fragments_merge (c : Cache) (id other : Identity) (incoming : List Fragment) :
    (c.merge id incoming).fragments other =
      if other = id then c.merged id incoming else c.fragments other := by
  rw [fragments, merge, Table.get?_put]
  split <;> rfl

end Cache

end Amalgam
