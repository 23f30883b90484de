import Amalgam.Grouping
import Amalgam.Item

/-! # Buckets

A fragment is a native source together with its item. Fragments of one platform and one grouping key
make up a bucket, which is merged into one output.
-/

namespace Amalgam

structure Fragment where
  item : Item
  source : NativeSource
deriving DecidableEq

structure BucketKey where
  platform : Option Platform
  groupingKey : Text
deriving DecidableEq, Repr

def Fragment.key (f : Fragment) : BucketKey := ⟨f.item.platform, f.source.groupingKey⟩

def Fragment.site (f : Fragment) : Site :=
  ⟨some f.source.filename, f.source.relativePath, some f.item.displayPath⟩

def byModule (fragments : List Fragment) : Table ModuleInfo (List Fragment) :=
  groupBy (·.item.module) fragments

def buckets (fragments : List Fragment) : Table BucketKey (List Fragment) :=
  groupBy Fragment.key fragments

end Amalgam
