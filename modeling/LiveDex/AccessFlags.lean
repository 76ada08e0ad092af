/-!
Access flags of classes, fields and methods. Class files hold sixteen bits of them and records
thirty-two, of which the bit for constructors is the only one above the sixteen that is set here.
-/
namespace LiveDex.AccessFlags

def staticBit : UInt32 := 0x0008

/-- Marks class files by modern compilers and means nothing in a record. -/
def superBit : UInt32 := 0x0020

def nativeBit : UInt32 := 0x0100

def interfaceBit : UInt32 := 0x0200

def abstractBit : UInt32 := 0x0400

def constructorBit : UInt32 := 0x10000

/-- Some of the bits are set. -/
def hasAny (flags bits : UInt32) : Bool :=
  flags &&& bits != 0

end LiveDex.AccessFlags
