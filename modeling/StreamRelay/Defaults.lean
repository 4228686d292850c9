namespace StreamRelay.Defaults

def bufferSize : Nat := 4096

-- The largest payload of one datagram.
def maxDatagram : Nat := 65507

def pollMillis : Int := 100

-- How long a listener rests that ran out of descriptors.
def acceptRetryMillis : Int := 100

def backlog : Int := 10

def listenHost : String := "0.0.0.0"

def quitCommand : String := "quit"

def consoleReadSize : Nat := 1024

def receiveMillis : Int := 1000

def acceptMillis : Int := 500

def connectMillis : Int := 5000

def joinMillis : Int := 1000

def consoleMillis : Int := 500

end StreamRelay.Defaults
