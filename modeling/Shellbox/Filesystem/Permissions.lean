/-!
# Permission bits

The low sixteen bits of a mode tell the kind of a node and who may read, write and execute it. A
mode is any integer; a negative one is read in two's complement.
-/

namespace Shellbox.Filesystem

/-- The mode of a new file: a regular file that all may read and the owner may write. -/
def fileMode : Int := 0o100644

/-- The mode of a new directory: all may read and enter it, the owner may write. -/
def directoryMode : Int := 0o040755

def modeBit (mode : Int) (i : Nat) : Bool := (mode % 65536).toNat.testBit i

/-- The four bits from 12 on that mark a directory. -/
def marksDirectory (mode : Int) : Bool := (mode % 65536).toNat / 4096 = 4

/-- Ten characters: the kind, then the rights of owner, group and others. -/
def permissionText (mode : Int) : String :=
  String.ofList ((if marksDirectory mode then 'd' else '-') ::
    (List.zip [8, 7, 6, 5, 4, 3, 2, 1, 0] "rwxrwxrwx".toList).map fun p =>
      if modeBit mode p.1 then p.2 else '-')

end Shellbox.Filesystem
