namespace TraceGate

abbrev Flags := BitVec 16

namespace Flags

def input : Flags := 1

def output : Flags := 4

def failed : Flags := 8

def hungUp : Flags := 16

def notOpen : Flags := 32

def meets (f g : Flags) : Bool := f &&& g != 0

end Flags

end TraceGate
